import Reckoner.Proofs.Expression.Operand
import Reckoner.Proofs.Expression.Signs
import Reckoner.Proofs.Expression.Words
import Reckoner.Proofs.Postfix.Execution
import Reckoner.Proofs.Symbol.Numerics

/-! # Splitting compound operators

A compound operator such as `*-` negates its whole right operand, which may have operators that bind
tighter. When a blank is written between its two characters, the sign belongs to the first operand only.
So both expressions have the same value, unless a tighter operator comes next.

* **`Reads.exists_signs`, `Reads.signs`** — signs before an operand, and the negations of its tree.
* **`Regrouped.exists_operand`** — the operand after the operator, when its signs have been regrouped.
* **`exists_program_insertBlank`** — the program of the text with the blank, which `exists_program_of_sign`
  and `exists_program_of_operator` find for the two places of the operator.
* **`exists_firstOperand`** — what the token after the first operand tells about the right operand.
* **`Program.RunsAlike`** — programs with the same outcome.
* **`assemble_insertBlank`** — how both programs run. -/

namespace Reckoner

/-! ## Signs before an operand -/

/-- No primary begins with a sign. -/
theorem Reads.head_factor {s : Stratum} {ts : List Token} {trees : List Tree} (h : Reads s ts trees)
    (hs : s = .primary ∨ s = .factor) : ∃ t us, ts = t :: us ∧ t.kind ∉ TokenKind.signs := by
  induction h with
  | number kind => exact ⟨_, [], rfl, by rw [kind]; decide⟩
  | constant kind known => exact ⟨_, [], rfl, by rw [kind]; decide⟩
  | group opens inner closes ih => exact ⟨_, _, rfl, by rw [opens]; decide⟩
  | call kind known opens inner closes arity ih => exact ⟨_, _, rfl, by rw [kind]; decide⟩
  | primary inner ih => exact ih (.inl rfl)
  | factorial inner kind ih =>
    obtain ⟨t, us, rfl, ht⟩ := ih (.inr rfl)
    exact ⟨t, _, rfl, ht⟩
  | _ => simp at hs

/-- A plus sign does not negate. -/
theorem negationCount_of_plus {q : Token} {qs : List Token} (kind : q.kind = .plus) :
    negationCount (q :: qs) = negationCount qs := by
  have hnone : negationCount [q] = 0 := by simp [negationCount, kind, TokenKind.negations]
  rw [negationCount_cons, hnone, Nat.zero_add]

/-- One more sign that negates is one more negation. -/
theorem Tree.unplaced_negate_of_signs {f u : Tree} {q : Token} {qs : List Token}
    (kind : q.kind ∈ TokenKind.negations)
    (h : u.unplaced = f.unplaced ++ List.replicate (negationCount qs) (.negate 0)) :
    (Tree.negate q.offset u).unplaced =
      f.unplaced ++ List.replicate (negationCount (q :: qs)) (.negate 0) := by
  have hone : negationCount [q] = 1 := by simp [negationCount, kind]
  rw [Tree.unplaced_negate, h, List.append_assoc, negationCount_cons, hone, Nat.add_comm,
    List.replicate_succ']

/-- **Signs at the beginning of an operand** negate what is after them. -/
theorem Reads.exists_signs {os rest qs zs : List Token} {u : Tree} (h : Reads .operand os [u])
    (signs : ∀ q ∈ qs, q.kind ∈ TokenKind.signs) (split : os ++ rest = qs ++ zs) :
    ∃ vs f, os = qs ++ vs ∧ zs = vs ++ rest ∧ Reads .operand vs [f] ∧
      u.unplaced = f.unplaced ++ List.replicate (negationCount qs) (.negate 0) := by
  induction qs generalizing os u with
  | nil => exact ⟨os, u, rfl, split.symm, h, (List.append_nil _).symm⟩
  | cons q qs ih =>
    obtain ⟨hq, hqs⟩ := List.forall_mem_cons.mp signs
    obtain ⟨t, os, rfl, -⟩ := h.head
    obtain ⟨rfl, hsplit⟩ := List.cons.inj split
    cases h with
    | factor inner =>
      obtain ⟨t', us, heq, ht⟩ := inner.head_factor (.inr rfl)
      obtain ⟨rfl, -⟩ := List.cons.inj heq
      exact absurd hq ht
    | negation kind inner =>
      obtain ⟨vs, f, rfl, rfl, hf, hunplaced⟩ := ih inner hqs hsplit
      exact ⟨vs, f, rfl, rfl, hf, Tree.unplaced_negate_of_signs kind hunplaced⟩
    | plus kind inner =>
      obtain ⟨vs, f, rfl, rfl, hf, hunplaced⟩ := ih inner hqs hsplit
      exact ⟨vs, f, rfl, rfl, hf, by rw [hunplaced, negationCount_of_plus kind]⟩

/-- An operand may have any signs before it. -/
theorem Reads.signs {ps vs : List Token} {f : Tree} (h : Reads .operand vs [f])
    (signs : ∀ p ∈ ps, p.kind ∈ TokenKind.signs) :
    ∃ u, Reads .operand (ps ++ vs) [u] ∧
      u.unplaced = f.unplaced ++ List.replicate (negationCount ps) (.negate 0) := by
  induction ps with
  | nil => exact ⟨f, h, (List.append_nil _).symm⟩
  | cons p ps ih =>
    obtain ⟨hp, hps⟩ := List.forall_mem_cons.mp signs
    obtain ⟨u, hu, hunplaced⟩ := ih hps
    rcases List.mem_cons.mp hp with kind | kind
    · exact ⟨u, .plus kind hu, by rw [hunplaced, negationCount_of_plus kind]⟩
    · exact ⟨_, .negation kind hu, Tree.unplaced_negate_of_signs kind hunplaced⟩

/-- Signs are no brackets. -/
theorem nestsWithin_signs {limit : Int} {qs ts : List Token}
    (signs : ∀ q ∈ qs, q.kind ∈ TokenKind.signs) :
    NestsWithin limit (qs ++ ts) ↔ NestsWithin limit ts := by
  induction qs with
  | nil => rfl
  | cons q qs ih =>
    obtain ⟨hq, hqs⟩ := List.forall_mem_cons.mp signs
    obtain ⟨negates, hsign⟩ := TokenKind.mem_signs_iff.mp hq
    have hopen : q.kind ≠ .openParen := by
      intro hopen
      rw [hopen] at hq
      exact absurd hq (by decide)
    rw [List.cons_append, nestsWithin_cons, openBrackets_of_sign hsign, Int.sub_zero, ih hqs]
    exact ⟨And.right, fun h => ⟨fun hparen => absurd hparen hopen, h⟩⟩

/-- **The operand after an operator**, when a sign has been taken from the operator and its signs have
been regrouped: its tree has one more negation, if that sign negates. -/
theorem Regrouped.exists_operand {negates : Bool} {os rest us : List Token} {u : Tree}
    (h : Regrouped negates (os ++ rest) us) (operand : Reads .operand os [u]) :
    ∃ os' v, us.map Token.word = (os' ++ rest).map Token.word ∧ Reads .operand os' [v] ∧
      v.unplaced = u.unplaced ++ List.replicate negates.toNat (.negate 0) ∧
      ∀ limit ts, NestsWithin limit (os ++ ts) → NestsWithin limit (os' ++ ts) := by
  generalize hts : os ++ rest = ts at h
  cases h with
  | @intro qs zs ps ys signs signs' count same =>
    obtain ⟨vs, f, rfl, rfl, hf, hu⟩ := operand.exists_signs signs hts
    obtain ⟨v, hv, hunplaced⟩ := hf.signs signs'
    refine ⟨ps ++ vs, v, ?_, hv, ?_, ?_⟩
    · rw [List.map_append, same, List.append_assoc, ← List.map_append]
    · rw [hunplaced, hu, count, Nat.add_comm, List.append_assoc, List.replicate_append_replicate]
    · intro limit ts hnests
      rw [List.append_assoc, nestsWithin_signs signs] at hnests
      rwa [List.append_assoc, nestsWithin_signs signs']

/-! ## The program of the text with the blank -/

/-- **The text with the blank has a program**, for whatever tree the operator and the next operand make
after the split. -/
theorem exists_program_insertBlank {s : String} {maxDepth : Int} {before os rest : List Token}
    {t last : Token} {op base : Operator} {negates : Bool} {u y : Tree}
    (tokens : tokenize (some s) = .ok (before ++ t :: (os ++ (rest ++ [last]))))
    (finish : last.kind = .finish) (nests : NestsWithin maxDepth (before ++ t :: (os ++ rest)))
    (kind : t.kind.operator? = some op) (compound : op.compound? = some (base, negates))
    (operand : Reads .operand os [u])
    (reads : ∀ {k os' v}, k.kind = base.tokenKind → Reads .operand os' [v] →
      v.unplaced = u.unplaced ++ List.replicate negates.toNat (.negate 0) →
      ∃ x, Reads (.level 0) (before ++ k :: (os' ++ rest)) [x] ∧ x.unplaced = y.unplaced) :
    ∃ q, assemble (some (insertBlank s (t.offset + 1))) maxDepth = .ok q ∧
      q.instructions.map Instruction.unplaced = y.unplaced := by
  obtain ⟨k, us, htokens, hk, hregrouped⟩ := tokenize_insertBlank tokens kind compound
  obtain ⟨os', v, hwords, hv, hunplaced, hnests⟩ := hregrouped.exists_operand operand
  obtain ⟨x, hx, hsame⟩ := reads hk hv hunplaced
  have hwords' : (before ++ k :: us).map Token.word =
      (before ++ k :: (os' ++ rest) ++ [last]).map Token.word := by
    simp only [List.map_append, List.map_cons, hwords, List.append_assoc, List.cons_append]
  -- neither operator is a bracket
  have hoperator : k.kind.operator? = some base := by rw [hk, Operator.operator?_tokenKind]
  have hnests' : NestsWithin maxDepth (before ++ k :: (os' ++ rest)) := by
    rw [nestsWithin_append, nestsWithin_cons, openBrackets_of_operator kind, Int.sub_zero] at nests
    rw [nestsWithin_append, nestsWithin_cons, openBrackets_of_operator hoperator, Int.sub_zero]
    refine ⟨nests.1, fun hopen => ?_, hnests _ _ nests.2.2⟩
    rw [hopen] at hoperator
    cases hoperator
  obtain ⟨q, hq, hinstructions⟩ := exists_program_of_words htokens hwords' finish hx hnests'
  exact ⟨q, hq, hinstructions.trans hsame⟩

/-! ## The two trees -/

/-- Trees with resolved calls make larger trees with resolved calls. -/
theorem Tree.Context.resolved {C : Tree → Tree} (h : Context C) {t u : Tree}
    (imp : t.Resolved → u.Resolved) : (C t).Resolved → (C u).Resolved := by
  induction h with
  | hole => exact imp
  | negate offset _ ih => exact ih
  | left op offset _ r ih => exact fun hr => ⟨ih hr.1, hr.2⟩
  | right op offset l _ ih => exact fun hr => ⟨hr.1, ih hr.2⟩
  | factorial offset _ ih => exact ih
  | argument f span ls _ rs ih =>
    rintro ⟨-, arity, hall⟩
    rw [Tree.allResolved_append] at hall
    refine ⟨List.append_ne_nil_of_right_ne_nil _ (List.cons_ne_nil _ _), ?_, ?_⟩
    · simpa using arity
    · exact Tree.allResolved_append.mpr ⟨hall.1, ih hall.2.1, hall.2.2⟩

/-- A program runs like the tree that has its instructions. -/
theorem Program.run_of_tree [Numerics] {q : Program} {y : Tree}
    (h : q.instructions.map Instruction.unplaced = y.unplaced) (resolved : y.Resolved)
    (source : String) :
    q.run.mapError Failure.unplaced = (y.evaluate source).mapError Failure.unplaced := by
  have hrun : q.run.mapError Failure.unplaced =
      (Program.run ⟨source, y.postorder⟩).mapError Failure.unplaced := Program.run_of_unplaced h
  rwa [Tree.run_postorder source y resolved] at hrun

/-- A tree with a sign before it. -/
def Tree.signed (negates : Bool) (offset : Int) (t : Tree) : Tree :=
  if negates then .negate offset t else t

/-- A signed tree without its places. -/
@[simp] theorem Tree.unplaced_signed (negates : Bool) (offset : Int) (t : Tree) :
    (t.signed negates offset).unplaced = t.unplaced ++ List.replicate negates.toNat (.negate 0) := by
  cases negates with
  | false => exact (List.append_nil _).symm
  | true => exact Tree.unplaced_negate offset t

/-- **A compound operator signs its right operand.** -/
theorem Tree.evaluate_compound [Numerics] [LawfulNumerics] {op base : Operator} {negates : Bool}
    (compound : op.compound? = some (base, negates)) (source : String) (offset place : Int)
    (l r : Tree) :
    (Tree.operation base offset l (r.signed negates place)).evaluate source =
      (Tree.operation op offset l r).evaluate source := by
  rw [evaluate, evaluate]
  simp only [Operator.apply_of_compound? compound]
  cases negates with
  | false => rfl
  | true =>
    show (l.evaluate source).bind (fun x => ((r.evaluate source).map _).map _) = _
    cases r.evaluate source <;> rfl

/-- A sign resolves nothing else. -/
theorem Tree.Resolved.signed {t : Tree} (h : t.Resolved) (negates : Bool) (offset : Int) :
    (t.signed negates offset).Resolved := by
  cases negates <;> exact h

section Splitting

variable {s : String} {maxDepth : Int} {before os xs ls chain ys : List Token} {t last : Token}
  {op base : Operator} {negates : Bool} {l u : Tree} {C S : Tree → Tree}

/-- **A sign that is split** leaves the same program, but for its places. -/
theorem exists_program_of_sign
    (tokens : tokenize (some s) = .ok (before ++ t :: (os ++ (ys ++ [last]))))
    (finish : last.kind = .finish) (nests : NestsWithin maxDepth (before ++ t :: (os ++ ys)))
    (kind : t.kind.operator? = some op) (compound : op.compound? = some (base, negates))
    (sign : t.kind ∈ TokenKind.negations) (operand : Reads .operand os [u])
    (frame : Frame .operand (.level 0) before ys [] C []) :
    ∃ q, assemble (some (insertBlank s (t.offset + 1))) maxDepth = .ok q ∧
      q.instructions.map Instruction.unplaced = (C (.negate t.offset u)).unplaced := by
  refine exists_program_insertBlank tokens finish nests kind compound operand ?_
  intro k os' v hk hv hunplaced
  -- either of the two signs that are made of it negates, and the other one does not
  obtain ⟨w, hw, hsame⟩ : ∃ w, Reads .operand (k :: os') [w] ∧
      w.unplaced = (Tree.negate t.offset u).unplaced := by
    rw [← TokenKind.operator?_eq_some_iff.mp kind] at sign
    cases op <;> cases compound
    · exact ⟨v, .plus hk hv, by rw [hunplaced, Tree.unplaced_negate]; rfl⟩
    · refine ⟨_, .negation (by rw [hk]; decide) hv, ?_⟩
      rw [Tree.unplaced_negate, hunplaced, Tree.unplaced_negate, Bool.toNat_false,
        List.replicate_zero, List.append_nil]
    all_goals exact absurd sign (by decide)
  exact ⟨C w, frame.reads hw, frame.context.unplaced_congr hsame⟩

/-- **An operator that is split** leaves its sign to the first operand after it. -/
theorem exists_program_of_operator [Numerics]
    (tokens : tokenize (some s) = .ok (xs ++ ls ++ t :: (os ++ (chain ++ ys ++ [last]))))
    (finish : last.kind = .finish)
    (nests : NestsWithin maxDepth (xs ++ ls ++ t :: (os ++ (chain ++ ys))))
    (kind : t.kind.operator? = some op) (compound : op.compound? = some (base, negates))
    (left : Reads (.level op.precedence) ls [l]) (operand : Reads .operand os [u])
    (right : ∀ os' u', Reads .operand os' [u'] →
      Reads (.level (op.precedence + 1)) (os' ++ chain) [S u']) (inner : Tree.Context S)
    (frame : Frame (.level op.precedence) (.level 0) xs ys [] C [])
    (resolved : (C (.operation op t.offset l (S u))).Resolved) :
    ∃ q, assemble (some (insertBlank s (t.offset + 1))) maxDepth = .ok q ∧
      q.run.mapError Failure.unplaced =
        ((C (.operation base t.offset l (S (u.signed negates t.offset)))).evaluate s).mapError
          Failure.unplaced := by
  obtain ⟨q, hq, hinstructions⟩ : ∃ q,
      assemble (some (insertBlank s (t.offset + 1))) maxDepth = .ok q ∧
        q.instructions.map Instruction.unplaced =
          (C (.operation base t.offset l (S (u.signed negates t.offset)))).unplaced := by
    refine exists_program_insertBlank tokens finish nests kind compound operand ?_
    intro k os' v hk hv hunplaced
    have hprecedence := Operator.precedence_of_compound? compound
    have hoperator : k.kind.operator? = some base := by rw [hk, Operator.operator?_tokenKind]
    have hoperation := Reads.operation left hoperator (Operator.mem_level_iff.mpr hprecedence)
      (right os' v hv)
    refine ⟨C (.operation base k.offset l (S v)), ?_, frame.context.unplaced_congr ?_⟩
    · have hreads := frame.reads hoperation
      simpa only [List.append_assoc, List.cons_append, List.nil_append] using hreads
    · rw [Tree.unplaced_operation, Tree.unplaced_operation,
        inner.unplaced_congr (hunplaced.trans (Tree.unplaced_signed negates t.offset u).symm)]
  -- the calls in the tree after the split are those in the tree before it
  have hsplit : (Tree.operation op t.offset l (S u)).Resolved →
      (Tree.operation base t.offset l (S (u.signed negates t.offset))).Resolved := fun hr =>
    ⟨hr.1, inner.resolved (fun hu => hu.signed negates t.offset) hr.2⟩
  exact ⟨q, hq, Program.run_of_tree hinstructions (frame.context.resolved hsplit resolved) s⟩

end Splitting

/-- The token after the right operand of an operator leaves that operand as it is. -/
theorem Stops.exists_next {m : Nat} {s : Stratum} {after : List Token} {last : Token}
    (h : Stops m s after) (finish : last.kind = .finish) :
    ∃ next rest, after ++ [last] = next :: rest ∧ next.kind ≠ .factorial ∧
      ∀ op, next.kind.operator? = some op → op.precedence ≤ m := by
  cases after with
  | cons x after =>
    obtain ⟨hmark, hoperator⟩ := h.head x rfl
    exact ⟨x, after ++ [last], rfl, hmark, hoperator⟩
  | nil =>
    refine ⟨last, [], rfl, by rw [finish]; decide, fun op hop => ?_⟩
    rw [finish] at hop
    cases hop

/-- **The token after the first operand** tells whether that operand is the whole right one, or the left
operand of a tighter operator in it. -/
theorem exists_firstOperand {m : Nat} {s : Stratum} {os chain ys : List Token} {last : Token} {u : Tree}
    {S : Tree → Tree} (operand : Reads .operand os [u]) (leading : Leading (m + 1) chain S)
    (stops : Stops m s ys) (finish : last.kind = .finish) :
    ∃ next, FirstOperand (os ++ (chain ++ ys ++ [last])) os next ∧
      ((∀ o, next.kind.operator? = some o → o.precedence ≤ m) → S = fun v => v) ∧
      ∀ o, next.kind.operator? = some o → m < o.precedence →
        ∃ S' r, Tree.Spine (m + 1) S' ∧ S = fun v => S' (.operation o next.offset v r) := by
  cases leading with
  | alone =>
    obtain ⟨next, rest, hnext, hmark, hoperator⟩ := stops.exists_next finish
    refine ⟨next, ⟨operand.derives, ⟨rest, by rw [← hnext]; rfl⟩, hmark⟩, fun _ => rfl, ?_⟩
    exact fun o ho hlt => absurd (hoperator o ho) (Nat.not_le_of_lt hlt)
  | @operator x op S kind binds outer r chain =>
    have hmark : x.kind ≠ .factorial := by
      intro hmark
      rw [hmark] at kind
      cases kind
    refine ⟨x, ⟨operand.derives, ⟨_, rfl⟩, hmark⟩, ?_, ?_⟩
    · exact fun hle => absurd (hle op kind) (Nat.not_le_of_lt binds)
    · intro o ho _
      obtain rfl : op = o := Option.some.inj (kind.symm.trans ho)
      exact ⟨S, r, outer, rfl⟩

/-! ## Running both -/

/-- Programs **run alike** when they have the same value, or stop for the same reason. -/
def Program.RunsAlike [Numerics] (p q : Program) : Prop :=
  q.run.mapError Failure.unplaced = p.run.mapError Failure.unplaced

/-- **Splitting a compound operator.** When a blank is written between the two characters of a compound
operator, the expression still has a program. Both programs run alike where the operator is a sign, and
where the sign that it ends with does not negate. Otherwise an operand comes after it, and they run alike
when no operator that binds tighter is next. When one is, the first program negates the whole right operand,
and the second one only the first operand in it. -/
theorem assemble_insertBlank [Numerics] [LawfulNumerics] {s : String} {maxDepth : Int} {p : Program}
    {before after : List Token}
    {t : Token} {op base : Operator} {negates : Bool} (h : assemble (some s) maxDepth = .ok p)
    (tokens : tokenize (some s) = .ok (before ++ t :: after)) (kind : t.kind.operator? = some op)
    (compound : op.compound? = some (base, negates)) :
    ∃ q, assemble (some (insertBlank s (t.offset + 1))) maxDepth = .ok q ∧
      (operandDue before = true → p.RunsAlike q) ∧
      (operandDue before = false → negates = false → p.RunsAlike q) ∧
      (operandDue before = false → ∃ us next, FirstOperand after us next) ∧
      ∀ us next, operandDue before = false → FirstOperand after us next →
        ((∀ o, next.kind.operator? = some o → o.precedence ≤ op.precedence) → p.RunsAlike q) ∧
        ∀ o, next.kind.operator? = some o → op.precedence < o.precedence → negates = true →
          ∃ (C S : Tree → Tree) (l u r : Tree), Tree.Context C ∧ Tree.Spine (op.precedence + 1) S ∧
            Reads .operand us [u] ∧
            p.instructions =
              (C (.operation op t.offset l (S (.operation o next.offset u r)))).postorder ∧
            p.run = (C (.operation base t.offset l
              (.negate t.offset (S (.operation o next.offset u r))))).evaluate s ∧
            q.run.mapError Failure.unplaced = ((C (.operation base t.offset l
              (S (.operation o next.offset (.negate t.offset u) r)))).evaluate s).mapError
                Failure.unplaced := by
  obtain ⟨_, ts, last, tree, hs, htokens, finish, nests, reads, rfl⟩ := exists_tree_of_assemble h
  cases hs
  have hkind := TokenKind.operator?_eq_some_iff.mp kind
  have hlast : last ≠ t := by
    rintro rfl
    rw [finish] at kind
    cases kind
  have hplain : t.kind ≠ .plus := hkind ▸ Operator.tokenKind_of_compound? compound
  rw [tokens] at htokens
  obtain ⟨after, rfl, rfl⟩ := exists_split_concat (Except.ok.inj htokens).symm hlast
  obtain ⟨due, s₁, xs, ls, rs, ys, x, C, rfl, rfl, rfl, roots, frame⟩ :=
    (reads.located kind hplain rfl).exists_frame
  have hrun := reads.run_postorder s
  cases roots with
  | sign sign operand =>
    rw [List.append_nil] at tokens nests ⊢
    rw [List.append_assoc rs] at tokens
    obtain ⟨q, hq, hinstructions⟩ :=
      exists_program_of_sign tokens finish nests kind compound sign operand frame
    have hdue : operandDue xs = true := by
      have h := frame.due []
      rwa [List.append_nil] at h
    have hother : operandDue xs ≠ false := fun h => Bool.false_ne_true (h.symm.trans hdue)
    exact ⟨q, hq, fun _ => Program.run_of_unplaced hinstructions, fun h => absurd h hother,
      fun h => absurd h hother, fun _ _ h => absurd h hother⟩
  | @operator op' _ _ l r left kind' right =>
    obtain rfl : op = op' := Option.some.inj (kind.symm.trans kind')
    obtain ⟨os, chain, u, S, rfl, htree, operand, leading, replace⟩ := right.exists_leading rfl
    obtain rfl := (List.cons.inj htree).1
    rw [List.append_assoc os] at nests
    rw [List.append_assoc os, List.append_assoc os] at tokens
    obtain ⟨q, hq, hrun'⟩ := exists_program_of_operator tokens finish nests kind compound left operand
      replace leading.context frame (Tree.allResolved_singleton.mp reads.resolved.2)
    have hdue : operandDue (xs ++ ls) = false := (frame.due ls).trans left.operandDue_eq
    have hother : operandDue (xs ++ ls) ≠ true := fun h => Bool.false_ne_true (hdue.symm.trans h)
    -- where the sign applies to the whole right operand, both programs run alike
    have halike : S (u.signed negates t.offset) = (S u).signed negates t.offset →
        Program.RunsAlike ⟨s, (C (.operation op t.offset l (S u))).postorder⟩ q := by
      intro hwhole
      rw [Program.RunsAlike, hrun', hrun, hwhole]
      exact congrArg _ (frame.context.evaluate_congr (Tree.evaluate_compound compound s _ _ l (S u)))
    obtain ⟨next, hfirst, hloose, htight⟩ :=
      exists_firstOperand operand leading (frame.stops rfl) finish
    rw [List.append_assoc os, List.append_assoc os]
    refine ⟨q, hq, fun h => absurd h hother, fun _ hplus => halike (by rw [hplus]; rfl),
      fun _ => ⟨os, next, hfirst⟩, fun us next' _ hsame => ?_⟩
    obtain ⟨rfl, rfl⟩ := hfirst.unique hsame
    refine ⟨fun hle => halike (by rw [hloose hle]), fun o ho hlt hnegates => ?_⟩
    obtain ⟨S, r, hspine, rfl⟩ := htight o ho hlt
    subst hnegates
    refine ⟨C, S, l, u, r, frame.context, hspine, operand, rfl, ?_, hrun'⟩
    rw [hrun]
    exact (frame.context.evaluate_congr (Tree.evaluate_compound compound s _ t.offset l _)).symm

/-- With a power next, the two programs have different values. -/
theorem assemble_insertBlank_power :
    ∃ p q, assemble (some "2*-3^2") 256 = .ok p ∧ assemble (some "2* -3^2") 256 = .ok q ∧
      p.run.toOption = some (-18) ∧ q.run.toOption = some 18 ∧
      ∃ (C S : Tree → Tree) (l u r : Tree), Tree.Context C ∧ Tree.Spine 3 S ∧
        p.run = (C (.operation .times 1 l
          (.negate 1 (S (.operation .power 4 u r))))).evaluate "2*-3^2" ∧
        q.run.mapError Failure.unplaced = ((C (.operation .times 1 l
          (S (.operation .power 4 (.negate 1 u) r)))).evaluate "2*-3^2").mapError Failure.unplaced := by
  have tokens : tokenize (some "2*-3^2") = .ok ([⟨.number, "2", 0⟩] ++ ⟨.timesMinus, "*-", 1⟩ ::
      [⟨.number, "3", 3⟩, ⟨.power, "^", 4⟩, ⟨.number, "2", 5⟩, ⟨.finish, "", 6⟩]) := by
    decide +kernel
  have hvalue : (assemble (some "2*-3^2") 256).toOption.bind (fun p => p.run.toOption) =
      some (-18) := by decide +kernel
  have hvalue' : (assemble (some "2* -3^2") 256).toOption.bind (fun q => q.run.toOption) =
      some 18 := by decide +kernel
  have hblank : insertBlank "2*-3^2" 2 = "2* -3^2" := by decide
  have hfirst : FirstOperand [⟨.number, "3", 3⟩, ⟨.power, "^", 4⟩, ⟨.number, "2", 5⟩, ⟨.finish, "", 6⟩]
      [⟨.number, "3", 3⟩] ⟨.power, "^", 4⟩ :=
    ⟨.factor (.primary (.number rfl)), ⟨_, rfl⟩, by decide⟩
  cases h : assemble (some "2*-3^2") 256 with
  | error f =>
    rw [h] at hvalue
    cases hvalue
  | ok p =>
    obtain ⟨q, hq, -, -, -, hnext⟩ := assemble_insertBlank h tokens rfl rfl
    rw [hblank] at hq
    obtain ⟨C, S, l, u, r, hC, hS, -, -, hp, hrun⟩ :=
      (hnext _ _ rfl hfirst).2 .power rfl (by decide) rfl
    rw [h] at hvalue
    rw [hq] at hvalue'
    exact ⟨p, q, rfl, hq, hvalue, hvalue', C, S, l, u, r, hC, hS, hp, hrun⟩

end Reckoner
