import Reckoner.Elementary.Library
import Reckoner.Proofs.Expression.Spelling
import Reckoner.Proofs.Postfix.Likeness

/-! # Layout does not matter

Where tokens stand decides nothing but the places that instructions and faults point at. Two
expressions with the same words, however they are laid out, have the same program but for its places, or
the same fault at the same token.

* **`Token.word`** — a token without its place.
* **`Likeness.paired`** — tokens of two lists that have the same index.
* **`Cursor.Abreast`** — cursors that have read equally many of their tokens.
* **`Failure.unplaced`** — why a run stops, without the place.
* **`execute_of_unplaced`** — places do not matter for a run.
* **`assemble_of_same_words`** — expressions with the same words are assembled and run alike. -/

namespace Reckoner

/-- A token **without its place**. -/
def Token.word (t : Token) : TokenKind × String := (t.kind, t.literal)

/-- The tokens of two lists that have the **same index**. -/
def Likeness.paired (ts us : List Token) : Likeness :=
  .verbatim fun i j => ∃ (k : Nat) (t u : Token),
    ts[k]? = some t ∧ us[k]? = some u ∧ t.offset = i ∧ u.offset = j

/-! ## Cursors abreast -/

namespace Cursor

/-- After a token that is not the last, a cursor yields the others. -/
theorem Yields.tail {c c' : Cursor} {t : Token} {ts : List Token} (h : Yields c (t :: ts) c')
    (inner : t.kind ≠ .finish) : ∃ c₁, c.next = (.ok t, c₁) ∧ Yields c₁ ts c' := by
  cases h with
  | finish read last => exact absurd last inner
  | step read inner rest => exact ⟨_, read, rest⟩

/-- Two cursors are **abreast** when they have read equally many of their tokens. -/
def Abreast (ts us : List Token) (c d : Cursor) : Prop :=
  ∃ k c' d', c.Yields (ts.drop k) c' ∧ d.Yields (us.drop k) d'

variable {ts us : List Token} {c d : Cursor}

/-- **Cursors that are abreast have like tokens** and are abreast after them. -/
theorem Abreast.nexts (same : us.map Token.word = ts.map Token.word) (h : Abreast ts us c d) :
    (Likeness.paired ts us).Nexts (Abreast ts us) c.next d.next := by
  obtain ⟨k, c', d', hc, hd⟩ := h
  obtain ⟨t, ts', c₁, hts, readt⟩ := hc.exists_next
  obtain ⟨u, us', d₁, hus, readu⟩ := hd.exists_next
  have ht : ts[k]? = some t := by
    rw [← List.head?_drop, hts, List.head?_cons]
  have hu : us[k]? = some u := by
    rw [← List.head?_drop, hus, List.head?_cons]
  -- both are the tokens with the index that is reached
  have hword : u.word = t.word := by
    have h := congrArg (·[k]?) same
    simp only [List.getElem?_map, ht, hu, Option.map_some, Option.some.injEq] at h
    exact h
  obtain ⟨hkind, hliteral⟩ := Prod.mk.inj hword
  rw [readt, readu]
  refine .token ⟨hkind, hliteral, k, t, u, ht, hu, rfl, rfl⟩ fun inner => ?_
  have hts' : ts.drop (k + 1) = ts' := by
    rw [← List.tail_drop, hts, List.tail_cons]
  have hus' : us.drop (k + 1) = us' := by
    rw [← List.tail_drop, hus, List.tail_cons]
  rw [hts] at hc
  rw [hus] at hd
  obtain ⟨c₂, readt', hc⟩ := hc.tail inner
  obtain ⟨d₂, readu', hd⟩ := hd.tail (hkind ▸ inner)
  rw [readt] at readt'
  rw [readu] at readu'
  cases readt'
  cases readu'
  exact ⟨k + 1, c', d', hts' ▸ hc, hus' ▸ hd⟩

end Cursor

/-! ## Runs -/

/-- **Why a run stops**, without the place. -/
def Failure.unplaced : Failure → Failure
  | .fault f => .fault (.unplaced f.cause "")
  | e => e

/-- Two faults with one cause are the same failure but for the place. -/
theorem Failure.unplaced_ofFault {f g : Fault} (same : g.cause = f.cause) :
    (ofFault g).unplaced = (ofFault f).unplaced := by
  rw [ofFault, ofFault, same]
  split
  · rfl
  · rw [unplaced, unplaced, same]

/-- Computations that are the same but for what is kept of their failures have the same value, or both
fail. -/
theorem cases_of_mapError_eq {α ε δ : Type} {g : ε → δ} {x y : Except ε α}
    (h : y.mapError g = x.mapError g) :
    (∃ value, x = .ok value ∧ y = .ok value) ∨
      ∃ e e', x = .error e ∧ y = .error e' ∧ g e' = g e := by
  cases x with
  | ok value =>
    cases y with
    | ok value' => exact .inl ⟨value, rfl, congrArg Except.ok (Except.ok.inj h)⟩
    | error e' => cases h
  | error e =>
    cases y with
    | ok value' => cases h
    | error e' => exact .inr ⟨e, e', rfl, rfl, Except.error.inj h⟩

/-- An instruction without its place has the same effect. -/
@[simp] theorem Instruction.execute_unplaced [Numerics] (source source' : String) (i : Instruction)
    (stack : Stack) :
    (i.unplaced.execute source' stack).mapError Failure.unplaced =
      (i.execute source stack).mapError Failure.unplaced := by
  have hfault : ∀ {f g : Fault}, g.cause = f.cause →
      (Except.error (.ofFault g) : Except Failure Stack).mapError Failure.unplaced =
        (Except.error (.ofFault f) : Except Failure Stack).mapError Failure.unplaced :=
    fun same => congrArg Except.error (Failure.unplaced_ofFault same)
  cases i with
  | number value span => rfl
  | negate offset =>
    cases stack with
    | nil => exact hfault rfl
    | cons x rest => rfl
  | factorial offset =>
    cases stack with
    | nil => exact hfault rfl
    | cons x rest => rfl
  | operation op offset =>
    match stack with
    | [] => exact hfault rfl
    | [x] => exact hfault rfl
    | y :: x :: rest => rfl
  | unknown shown => rfl
  | call f arity span =>
    show (executeCall source' f arity ⟨0, 0⟩ stack).mapError Failure.unplaced =
      (executeCall source f arity span stack).mapError Failure.unplaced
    rw [executeCall, executeCall]
    split
    · exact hfault rfl
    · split
      · exact hfault rfl
      · split <;> rfl

/-- **Places do not matter for a run**: instructions that are the same but for them have the same
effect, in any expression. -/
theorem execute_of_unplaced [Numerics] (source source' : String) {is js : List Instruction}
    (same : js.map Instruction.unplaced = is.map Instruction.unplaced) (stack : Stack) :
    (execute source' js stack).mapError Failure.unplaced =
      (execute source is stack).mapError Failure.unplaced := by
  induction is generalizing js stack with
  | nil =>
    rw [List.map_nil, List.map_eq_nil_iff] at same
    subst same
    rfl
  | cons i is ih =>
    obtain ⟨j, js, rfl, hi, his⟩ := List.map_eq_cons_iff.mp same
    have hexecute : (j.execute source' stack).mapError Failure.unplaced =
        (i.execute source stack).mapError Failure.unplaced := by
      rw [← Instruction.execute_unplaced source source' i, ← hi,
        Instruction.execute_unplaced source' source' j]
    rw [execute, execute]
    rcases cases_of_mapError_eq hexecute with ⟨stack', hx, hy⟩ | ⟨e, e', hx, hy, hcause⟩
    · rw [hx, hy]
      exact ih his stack'
    · rw [hx, hy]
      exact congrArg Except.error hcause

/-- Programs that are the same but for their places and their texts have the same result. -/
theorem Program.run_of_unplaced [Numerics] {p q : Program}
    (same : q.instructions.map Instruction.unplaced = p.instructions.map Instruction.unplaced) :
    q.run.mapError Failure.unplaced = p.run.mapError Failure.unplaced := by
  have hexecute := execute_of_unplaced p.source q.source same []
  rw [run, run]
  rcases cases_of_mapError_eq hexecute with ⟨stack, hx, hy⟩ | ⟨e, e', hx, hy, hcause⟩
  · rw [hx, hy]
    -- a stack of any height is judged alike
    match stack with
    | [] => rfl
    | [x] => rfl
    | _ :: _ :: _ => rfl
  · rw [hx, hy]
    exact congrArg Except.error hcause

/-! ## Whole expressions -/

/-- Corresponding instructions are the same but for their places. -/
theorem Likeness.Instructions.unplaced_eq {l : Likeness} {i j : Instruction}
    (h : l.Instructions i j) : j.unplaced = i.unplaced := by
  cases h <;> rfl

/-- Instructions that are alike are the same without their places. -/
theorem Likeness.map_unplaced_eq {l : Likeness} {is js : List Instruction}
    (h : List.Forall₂ l.Instructions is js) :
    js.map Instruction.unplaced = is.map Instruction.unplaced := by
  induction h with
  | nil => rfl
  | cons first rest ih => rw [List.map_cons, List.map_cons, first.unplaced_eq, ih]

/-- **Layout does not matter.** When two expressions have the same words, that is, the same tokens but
for their places, either both have programs, which are the same but for their places and run alike, or
both have a fault with the same cause, and the two faults point at tokens with the same index. -/
theorem assemble_of_same_words [Numerics] {source source' : Option String} {ts us : List Token}
    (h : tokenize source = .ok ts) (h' : tokenize source' = .ok us)
    (same : us.map Token.word = ts.map Token.word) (maxDepth : Int) :
    (∃ p q, assemble source maxDepth = .ok p ∧ assemble source' maxDepth = .ok q ∧
      q.instructions.map Instruction.unplaced = p.instructions.map Instruction.unplaced ∧
      q.run.mapError Failure.unplaced = p.run.mapError Failure.unplaced) ∨
    ∃ f g, assemble source maxDepth = .error f ∧ assemble source' maxDepth = .error g ∧
      g.category = f.category ∧ g.kind = f.kind ∧ g.message = f.message ∧
      ∃ (k : Nat) (t u : Token),
        ts[k]? = some t ∧ us[k]? = some u ∧ f.offset = t.offset ∧ g.offset = u.offset := by
  obtain ⟨s, c, rfl, hne, hyields⟩ := tokenize_eq_ok_iff.mp h
  obtain ⟨s', d, rfl, hne', hyields'⟩ := tokenize_eq_ok_iff.mp h'
  have habreast : Cursor.Abreast ts us (.atStart s) (.atStart s') :=
    ⟨0, c, d, hyields, hyields'⟩
  have hresults := Likeness.resume (Cursor.Abreast.nexts same)
    (Likeness.assemblers_start s s' maxDepth) .operand habreast
  rw [← assemble_eq_resume hne, ← assemble_eq_resume hne'] at hresults
  generalize assemble (some s) maxDepth = result, assemble (some s') maxDepth = result' at hresults ⊢
  cases hresults with
  | program instructions =>
    have hsame := Likeness.map_unplaced_eq instructions
    exact .inl ⟨_, _, rfl, rfl, hsame, Program.run_of_unplaced hsame⟩
  | @fault f g alike =>
    have hcause : g.cause = f.cause := alike.cause.trans f.cause.respell_id
    obtain ⟨i, j, hi, hj, k, t, u, ht, hu, rfl, rfl⟩ := alike.span.begins
    exact .inr ⟨f, g, rfl, rfl, congrArg Cause.category hcause, congrArg Cause.kind hcause,
      congrArg Cause.message hcause, k, t, u, ht, hu, hi, hj⟩

/-- A call with too many arguments, on one line and on several: the fault is at the third token of
each. -/
theorem assemble_of_same_words_wrapped :
    ∃ ts us, tokenize (some "2*cos(1,2)") = .ok ts ∧ tokenize (some " 2 *\ncos( 1,\n 2 )") = .ok us ∧
      us.map Token.word = ts.map Token.word ∧
      ∃ f g, assemble (some "2*cos(1,2)") 256 = .error f ∧
        assemble (some " 2 *\ncos( 1,\n 2 )") 256 = .error g ∧ f.offset = 2 ∧
        g.message = f.message ∧
        ∃ (k : Nat) (t u : Token),
          ts[k]? = some t ∧ us[k]? = some u ∧ f.offset = t.offset ∧ g.offset = u.offset := by
  have h : tokenize (some "2*cos(1,2)") = .ok [⟨.number, "2", 0⟩, ⟨.times, "*", 1⟩,
      ⟨.function, "cos", 2⟩, ⟨.openParen, "(", 5⟩, ⟨.number, "1", 6⟩, ⟨.comma, ",", 7⟩,
      ⟨.number, "2", 8⟩, ⟨.closeParen, ")", 9⟩, ⟨.finish, "", 10⟩] := by
    decide +kernel
  have h' : tokenize (some " 2 *\ncos( 1,\n 2 )") = .ok [⟨.number, "2", 1⟩, ⟨.times, "*", 3⟩,
      ⟨.function, "cos", 5⟩, ⟨.openParen, "(", 8⟩, ⟨.number, "1", 10⟩, ⟨.comma, ",", 11⟩,
      ⟨.number, "2", 14⟩, ⟨.closeParen, ")", 16⟩, ⟨.finish, "", 17⟩] := by
    decide +kernel
  have hfault : assemble (some "2*cos(1,2)") 256 =
      .error ⟨.arityMismatch "cos" 1 2, "2*cos(1,2)", 2, 8⟩ := by
    decide +kernel
  refine ⟨_, _, h, h', by decide, ?_⟩
  rcases assemble_of_same_words h h' (by decide) 256 with
    ⟨p, q, hp, -⟩ | ⟨f, g, hf, hg, -, -, hmessage, hplace⟩
  · rw [hfault] at hp
    cases hp
  · have hoffset : f.offset = 2 := by
      rw [hfault] at hf
      cases hf
      rfl
    exact ⟨f, g, hf, hg, hoffset, hmessage, hplace⟩

end Reckoner
