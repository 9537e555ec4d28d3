import Reckoner.Proofs.Expression.Marks
import Reckoner.Proofs.Expression.Spelling

/-! # Contexts

A tree with a place for another one, and the tokens around that place. What is put there decides the value
of the whole only by its own value.

* **`Tree.Context`** — the functions that put a tree into a larger one.
* **`Tree.Spine`** — those that put it first, on the left of operators of some precedence.
* **`Leading`** — the operators after the first operand of an expression; `Reads.exists_leading` finds
  them.
* **`Frame`** — the tokens around a phrase, and the context of its tree.
* **`Roots`, `Reads.exists_frame`** — the operands of an operator or a sign, and the frame of both. -/

namespace Reckoner

namespace Tree

/-! ## Trees -/

/-- The functions that put a tree into a larger one, at one place: a **context**. -/
inductive Context : (Tree → Tree) → Prop
  | hole : Context fun t => t
  | negate {C : Tree → Tree} (offset : Int) (inner : Context C) : Context fun t => .negate offset (C t)
  | left {C : Tree → Tree} (op : Operator) (offset : Int) (inner : Context C) (r : Tree) :
      Context fun t => .operation op offset (C t) r
  | right {C : Tree → Tree} (op : Operator) (offset : Int) (l : Tree) (inner : Context C) :
      Context fun t => .operation op offset l (C t)
  | factorial {C : Tree → Tree} (offset : Int) (inner : Context C) :
      Context fun t => .factorial offset (C t)
  | argument {C : Tree → Tree} (f : Function) (span : Span) (ls : List Tree) (inner : Context C)
      (rs : List Tree) : Context fun t => .call f span (ls ++ C t :: rs)

/-- A context in a context. -/
theorem Context.comp {C D : Tree → Tree} (h : Context C) (hD : Context D) : Context fun t => C (D t) := by
  induction h with
  | hole => exact hD
  | negate offset _ ih => exact .negate offset ih
  | left op offset _ r ih => exact .left op offset ih r
  | right op offset l _ ih => exact .right op offset l ih
  | factorial offset _ ih => exact .factorial offset ih
  | argument f span ls _ rs ih => exact .argument f span ls ih rs

/-- A tree among others gives way to one with the same value. -/
theorem evaluateAll_congr [Numerics] {source : String} {t u : Tree}
    (same : u.evaluate source = t.evaluate source) (ls rs : List Tree) :
    evaluateAll source (ls ++ u :: rs) = evaluateAll source (ls ++ t :: rs) := by
  induction ls with
  | nil => rw [List.nil_append, List.nil_append, evaluateAll, evaluateAll, same]
  | cons l ls ih => rw [List.cons_append, List.cons_append, evaluateAll, evaluateAll, ih]

/-- **Trees with the same value** make larger trees with the same value. -/
theorem Context.evaluate_congr [Numerics] {C : Tree → Tree} (h : Context C) {source : String} {t u : Tree}
    (same : u.evaluate source = t.evaluate source) :
    (C u).evaluate source = (C t).evaluate source := by
  induction h with
  | hole => exact same
  | negate offset _ ih => rw [evaluate, evaluate, ih]
  | left op offset _ r ih => rw [evaluate, evaluate, ih]
  | right op offset l _ ih => rw [evaluate, evaluate, ih]
  | factorial offset _ ih => rw [evaluate, evaluate, ih]
  | argument f span ls _ rs ih => rw [evaluate, evaluate, evaluateAll_congr ih]

/-- The instructions of a tree **without their places**. -/
def unplaced (t : Tree) : List Instruction := t.postorder.map Instruction.unplaced

/-- Trees that are the same but for places make larger trees that are. -/
theorem Context.unplaced_congr {C : Tree → Tree} (h : Context C) {t u : Tree}
    (same : u.unplaced = t.unplaced) : (C u).unplaced = (C t).unplaced := by
  unfold unplaced at same ⊢
  induction h with
  | hole => exact same
  | negate offset _ ih => simp only [postorder, List.map_append, ih]
  | left op offset _ r ih => simp only [postorder, List.map_append, ih]
  | right op offset l _ ih => simp only [postorder, List.map_append, ih]
  | factorial offset _ ih => simp only [postorder, List.map_append, ih]
  | argument f span ls _ rs ih =>
    simp only [postorder, postorders_append, postorders, List.map_append, ih, List.length_append,
      List.length_cons]

/-- The contexts whose place is the **first operand**, on the left of operators of at least some
precedence. -/
inductive Spine (n : Nat) : (Tree → Tree) → Prop
  | hole : Spine n fun t => t
  | left {S : Tree → Tree} {op : Operator} (offset : Int) (inner : Spine n S)
      (binds : n ≤ op.precedence) (r : Tree) : Spine n fun t => .operation op offset (S t) r

namespace Spine

variable {m n : Nat} {S : Tree → Tree}

/-- A spine is a context. -/
theorem context (h : Spine n S) : Context S := by
  induction h with
  | hole => exact .hole
  | left offset _ _ r ih => exact .left _ offset ih r

/-- A spine of tighter operators is one of looser ones. -/
theorem of_le (hmn : m ≤ n) (h : Spine n S) : Spine m S := by
  induction h with
  | hole => exact .hole
  | left offset _ binds r ih => exact .left offset ih (Nat.le_trans hmn binds) r

end Spine

end Tree

/-! ## The first operand -/

/-- The tokens **after the first operand** of an expression, and where its tree is: there are none, or the
first of them is an operator of at least some precedence, which it is the left operand of. -/
inductive Leading (n : Nat) : List Token → (Tree → Tree) → Prop
  | alone : Leading n [] fun t => t
  | operator {x : Token} {op : Operator} {S : Tree → Tree} (kind : x.kind.operator? = some op)
      (binds : n ≤ op.precedence) (outer : Tree.Spine n S) (r : Tree) (chain : List Token) :
      Leading n (x :: chain) fun t => S (.operation op x.offset t r)

/-- So is a chain that leads along it. -/
theorem Leading.of_le {m n : Nat} {chain : List Token} {S : Tree → Tree} (hmn : m ≤ n)
    (h : Leading n chain S) : Leading m chain S := by
  cases h with
  | alone => exact .alone
  | operator kind binds outer r chain =>
    exact .operator kind (Nat.le_trans hmn binds) (outer.of_le hmn) r chain

/-- A chain leads along a context. -/
theorem Leading.context {n : Nat} {chain : List Token} {S : Tree → Tree} (h : Leading n chain S) :
    Tree.Context S := by
  cases h with
  | alone => exact .hole
  | operator kind binds outer r chain => exact outer.context.comp (.left _ _ .hole r)

/-- **The first operand** of an expression, which any other one may replace. -/
theorem Reads.exists_leading {s : Stratum} {ts : List Token} {trees : List Tree} {n : Nat}
    (h : Reads s ts trees) (hs : s = .level n) :
    ∃ os chain u S, ts = os ++ chain ∧ trees = [S u] ∧ Reads .operand os [u] ∧ Leading n chain S ∧
      ∀ os' u', Reads .operand os' [u'] → Reads (.level n) (os' ++ chain) [S u'] := by
  induction h generalizing n with
  | @operand ts tree inner =>
    cases hs
    refine ⟨ts, [], tree, _, (List.append_nil ts).symm, rfl, inner, .alone, ?_⟩
    intro os' u' h
    rw [List.append_nil]
    exact .operand h
  | lower inner ih =>
    obtain rfl := Stratum.level.inj hs
    obtain ⟨os, chain, u, S, rfl, htree, hu, hleading, hreplace⟩ := ih rfl
    exact ⟨os, chain, u, S, rfl, htree, hu, hleading.of_le (Nat.le_succ _),
      fun os' u' h => .lower (hreplace os' u' h)⟩
  | @operation m ls rs t op l r left kind level right ihl _ =>
    obtain rfl := Stratum.level.inj hs
    obtain ⟨os, chain, u, S, rfl, htree, hu, hleading, hreplace⟩ := ihl rfl
    obtain rfl := (List.cons.inj htree).1
    have hbinds : m ≤ op.precedence := Nat.le_of_eq (Operator.mem_level_iff.mp level).symm
    refine ⟨os, chain ++ t :: rs, u, fun x => .operation op t.offset (S x) r,
      List.append_assoc .., rfl, hu, ?_, ?_⟩
    · -- the operator before this one stays the first
      cases hleading with
      | alone => exact .operator kind hbinds .hole r rs
      | operator kind' binds outer r' chain' =>
        exact .operator kind' binds (.left t.offset outer hbinds r) r' _
    · intro os' u' h
      rw [← List.append_assoc]
      exact .operation (hreplace os' u' h) kind level right
  | _ => cases hs

/-! ## Where an operand is due -/

/-- What is due after tokens depends on the last of them. -/
theorem operandDue_append (ts : List Token) {us : List Token} (h : us ≠ []) :
    operandDue (ts ++ us) = operandDue us := by
  obtain ⟨vs, t, rfl⟩ := (List.eq_nil_or_concat us).resolve_left h
  rw [List.concat_eq_append, ← List.append_assoc, operandDue_concat, operandDue_concat]

/-- After a token that completes no operand, the tokens before it do not matter. -/
theorem operandDue_append_cons (ts us : List Token) {t : Token} (h : t.kind.endsOperand = false) :
    operandDue (ts ++ t :: us) = operandDue us := by
  cases us with
  | nil => rw [operandDue_concat, h, operandDue_nil, Bool.not_false]
  | cons u us =>
    rw [operandDue_append ts (List.cons_ne_nil t _)]
    exact operandDue_append [t] (List.cons_ne_nil u us)

/-- After a phrase no operand is due. -/
theorem Reads.operandDue_eq {s : Stratum} {ts : List Token} {trees : List Tree} (h : Reads s ts trees) :
    operandDue ts = false := by
  have hne : ∀ {s ts trees}, Reads s ts trees → ts ≠ [] := by
    intro s ts trees h
    obtain ⟨t, us, rfl, -⟩ := h.head
    exact List.cons_ne_nil t us
  induction h with
  | number kind => simp [operandDue, kind, TokenKind.endsOperand]
  | constant kind known => simp [operandDue, kind, TokenKind.endsOperand]
  | group opens inner closes ih =>
    rw [← List.cons_append, operandDue_concat, closes]
    rfl
  | call kind known opens inner closes arity ih =>
    rw [← List.cons_append, ← List.cons_append, operandDue_concat, closes]
    rfl
  | factorial inner kind ih =>
    rw [operandDue_concat, kind]
    rfl
  | @negation s ts tree kind inner ih => exact (operandDue_append [s] (hne inner)).trans ih
  | @plus s ts tree kind inner ih => exact (operandDue_append [s] (hne inner)).trans ih
  | operation left kind level right _ ih =>
    rw [operandDue_append_cons _ _ (TokenKind.endsOperand_of_operator kind), ih]
  | comma left kind right _ ih =>
    rw [operandDue_append_cons _ _ (by rw [kind]; rfl), ih]
  | primary inner ih => exact ih
  | factor inner ih => exact ih
  | operand inner ih => exact ih
  | lower inner ih => exact ih
  | argument inner ih => exact ih

/-! ## Frames -/

/-- Whether a phrase may end with an operator of a level and its right operand: expressions of that
level or a lower one may, and arguments. -/
def Stratum.MayEnd (m : Nat) : Stratum → Prop
  | .level n => n ≤ m
  | .arguments => True
  | _ => False

/-- Whether tokens after an operand of a level **leave it as it is**: they do not begin with a mark of the
factorial or an operator that binds tighter. Where there are none, the phrase may end. -/
structure Stops (m : Nat) (s : Stratum) (after : List Token) : Prop where
  mayEnd : after = [] → s.MayEnd m
  head : ∀ x ∈ after.head?, x.kind ≠ .factorial ∧
    ∀ op, x.kind.operator? = some op → op.precedence ≤ m

/-- The tokens **around a phrase** `s` in a phrase `s'`, and where its tree is: in the context `C`, which
other trees `ls` and `rs` may stand beside. -/
structure Frame (s s' : Stratum) (before after : List Token) (ls : List Tree) (C : Tree → Tree)
    (rs : List Tree) : Prop where
  /-- Any other phrase of the same kind may stand there. -/
  reads : ∀ {ts t}, Reads s ts [t] → Reads s' (before ++ (ts ++ after)) (ls ++ C t :: rs)
  context : Tree.Context C
  /-- An operand is due at the beginning. -/
  due : ∀ ts, operandDue (before ++ ts) = operandDue ts
  stops : ∀ {m}, s = .level m → Stops m s' after

namespace Stops

variable {m : Nat} {s s' : Stratum} {after : List Token}

/-- The same tokens stop another phrase that may end like this one. -/
theorem of_mayEnd (h : Stops m s after) (ends : s.MayEnd m → s'.MayEnd m) :
    Stops m s' (after ++ []) := by
  rw [List.append_nil]
  exact ⟨fun hnil => ends (h.mayEnd hnil), h.head⟩

/-- More tokens after those that stop the operand. Only where there are none yet does it matter which. -/
theorem append_cons (h : Stops m s after) {x : Token} (us : List Token)
    (tight : s.MayEnd m → x.kind ≠ .factorial ∧
      ∀ op, x.kind.operator? = some op → op.precedence ≤ m) : Stops m s' (after ++ x :: us) where
  mayEnd hnil := absurd hnil (List.append_ne_nil_of_right_ne_nil after (List.cons_ne_nil x us))
  head := by
    cases after with
    | nil =>
      intro y hy
      cases hy
      exact tight (h.mayEnd rfl)
    | cons y after => exact h.head

/-- Brackets and commas stop every operand. -/
theorem append_separator (h : Stops m s after) {x : Token} (us : List Token)
    (kind : x.kind ∈ [.closeParen, .comma]) : Stops m s' (after ++ x :: us) := by
  refine h.append_cons us fun _ => ⟨?_, fun op hop => ?_⟩
  · intro hmark
    rw [hmark] at kind
    exact absurd kind (by decide)
  · rw [← TokenKind.operator?_eq_some_iff.mp hop] at kind
    exact absurd kind (by cases op <;> decide)

end Stops

namespace Frame

variable {s s₁ s' : Stratum} {before after : List Token} {ls ls' rs rs' : List Tree}
  {C C' : Tree → Tree}

/-- The empty frame. -/
theorem hole (s : Stratum) : Frame s s [] [] [] (fun t => t) [] where
  reads h := by rwa [List.nil_append, List.append_nil]
  context := .hole
  due _ := rfl
  stops := by
    rintro m rfl
    exact ⟨fun _ => Nat.le_refl m, fun x hx => absurd hx (Option.not_mem_none x)⟩

/-- A frame in a larger phrase. -/
theorem extend {xs ys : List Token} (h : Frame s s₁ before after ls C rs)
    (reads : ∀ {us t}, Reads s₁ us (ls ++ C t :: rs) → Reads s' (xs ++ (us ++ ys)) (ls' ++ C' t :: rs'))
    (context : Tree.Context C') (due : ∀ ts, operandDue (xs ++ ts) = operandDue ts)
    (stops : ∀ {m}, Stops m s₁ after → Stops m s' (after ++ ys)) :
    Frame s s' (xs ++ before) (after ++ ys) ls' C' rs' where
  reads hts := by
    have hinner := reads (h.reads hts)
    simpa only [List.append_assoc] using hinner
  context := context
  due ts := by rw [List.append_assoc, due, h.due]
  stops hs := stops (h.stops hs)

end Frame

/-! ## Where a token is -/

/-- A token **roots** a tree: as a sign, which is due where an operand is, or as an operator. -/
inductive Roots (t : Token) : Bool → Stratum → List Token → List Token → Tree → Prop
  | sign {rs : List Token} {u : Tree} (kind : t.kind ∈ TokenKind.negations)
      (operand : Reads .operand rs [u]) : Roots t true .operand [] rs (.negate t.offset u)
  | operator {op : Operator} {ls rs : List Token} {l r : Tree}
      (left : Reads (.level op.precedence) ls [l]) (kind : t.kind.operator? = some op)
      (right : Reads (.level (op.precedence + 1)) rs [r]) :
      Roots t false (.level op.precedence) ls rs (.operation op t.offset l r)

/-- A token between others of a phrase roots a part of its trees, in some frame. -/
inductive Located (t : Token) (s' : Stratum) : List Token → List Token → List Tree → Prop
  | intro {due : Bool} {s : Stratum} {xs ls rs ys : List Token} {x : Tree} {ts us : List Tree}
      {C : Tree → Tree} (roots : Roots t due s ls rs x) (frame : Frame s s' xs ys ts C us) :
      Located t s' (xs ++ ls) (rs ++ ys) (ts ++ C x :: us)

namespace Located

variable {t : Token} {s s' : Stratum} {before after xs ys : List Token} {tree : Tree}
  {ts us : List Tree}

/-- The frame in a phrase with one tree. -/
theorem exists_frame (h : Located t s before after [tree]) :
    ∃ due s₁ xs ls rs ys x C, before = xs ++ ls ∧ after = rs ++ ys ∧ tree = C x ∧
      Roots t due s₁ ls rs x ∧ Frame s₁ s xs ys [] C [] := by
  generalize htrees : [tree] = trees at h
  cases h with
  | @intro due s₁ xs ls rs ys x ts us C roots frame =>
    obtain ⟨rfl, rfl, rfl⟩ : ts = [] ∧ tree = C x ∧ us = [] := by
      cases ts with
      | nil => simpa using htrees
      | cons u ts => simp at htrees
    exact ⟨due, s₁, xs, ls, rs, ys, x, C, rfl, rfl, rfl, roots, frame⟩

/-- A phrase with one tree as a part of a larger phrase. -/
theorem extend (h : Located t s before after [tree]) (E : Tree → Tree)
    (reads : ∀ {vs u}, Reads s vs [u] → Reads s' (xs ++ (vs ++ ys)) (ts ++ E u :: us))
    (context : ∀ {C : Tree → Tree}, Tree.Context C → Tree.Context fun u => E (C u))
    (due : ∀ vs, operandDue (xs ++ vs) = operandDue vs)
    (stops : ∀ {m vs}, Stops m s vs → Stops m s' (vs ++ ys)) :
    Located t s' (xs ++ before) (after ++ ys) (ts ++ E tree :: us) := by
  obtain ⟨_, s₁, xs', ls, rs, ys', x, C, rfl, rfl, rfl, roots, frame⟩ := h.exists_frame
  have hframe : Frame s₁ s' (xs ++ xs') (ys' ++ ys) ts (fun u => E (C u)) us :=
    frame.extend reads (context frame.context) due stops
  have hlocated := Located.intro roots hframe
  rwa [List.append_assoc, ← List.append_assoc rs] at hlocated

/-- The same tokens as another phrase. -/
theorem of_reads (h : Located t s before after [tree])
    (reads : ∀ {vs u}, Reads s vs [u] → Reads s' vs [u])
    (ends : ∀ {m}, s.MayEnd m → s'.MayEnd m) : Located t s' before after [tree] := by
  have hlocated : Located t s' ([] ++ before) (after ++ []) ([] ++ tree :: []) := by
    refine h.extend id ?_ id (fun _ => by rw [List.nil_append]) (fun hstops => hstops.of_mayEnd ends)
    intro vs u hvs
    rw [List.nil_append, List.append_nil]
    exact reads hvs
  rwa [List.append_nil] at hlocated

/-- An argument of a call. -/
theorem call {name opening closing : Token} {f : Function} {trees : List Tree}
    (h : Located t .arguments before after trees) (kind : name.kind = .function)
    (known : function? name.literal = some f) (opens : opening.kind = .openParen)
    (closes : closing.kind = .closeParen) (arity : ∀ n, f.arity? = some n → trees.length = n) :
    Located t .primary (name :: opening :: before) (after ++ [closing])
      [.call f ⟨name.offset, ((closing.stop - name.offset : Nat) : Int)⟩ trees] := by
  cases h with
  | @intro _ s₁ xs' ls rs ys' x ts us C roots frame =>
    generalize hspan : (⟨name.offset, ((closing.stop - name.offset : Nat) : Int)⟩ : Span) = span
    have hframe : Frame s₁ .primary ([name, opening] ++ xs') (ys' ++ [closing]) []
        (fun u => .call f span (ts ++ C u :: us)) [] := by
      refine frame.extend (fun hvs => ?_) (.argument f span ts frame.context us) (fun vs => ?_)
        (fun hstops => hstops.append_separator [] (by rw [closes]; decide))
      · rw [← hspan]
        exact .call kind known opens hvs closes (by simpa using arity)
      · exact operandDue_append_cons [name] vs (by rw [opens]; rfl)
    have hlocated := Located.intro roots hframe
    rwa [← List.append_assoc rs] at hlocated

/-- An argument before others. -/
theorem comma {a : Token} {rs : List Token} {trees : List Tree}
    (h : Located t .arguments before after trees) (kind : a.kind = .comma)
    (right : Reads (.level 0) rs [tree]) :
    Located t .arguments before (after ++ a :: rs) (trees ++ [tree]) := by
  cases h with
  | @intro _ s₁ xs' ls rs' ys' x ts us C roots frame =>
    have hframe : Frame s₁ .arguments ([] ++ xs') (ys' ++ a :: rs) ts C (us ++ [tree]) := by
      refine frame.extend (fun hvs => ?_) frame.context (fun _ => rfl)
        (fun hstops => hstops.append_separator rs (by rw [kind]; decide))
      have hcomma := Reads.comma hvs kind right
      rwa [List.append_assoc] at hcomma
    have hlocated := Located.intro roots hframe
    rwa [← List.append_assoc rs', List.nil_append, ← List.cons_append, ← List.append_assoc ts]
      at hlocated

/-- The last argument after others. -/
theorem lastArgument {ls : List Token} {a : Token} {trees : List Tree}
    (h : Located t (.level 0) before after [tree]) (left : Reads .arguments ls trees)
    (kind : a.kind = .comma) : Located t .arguments (ls ++ a :: before) after (trees ++ [tree]) := by
  have hlocated : Located t .arguments ((ls ++ [a]) ++ before) (after ++ []) (trees ++ tree :: []) := by
    refine h.extend id ?_ id ?_ ?_
    · intro vs u hvs
      rw [List.append_nil, List.append_assoc]
      exact .comma left kind hvs
    · intro vs
      rw [List.append_assoc]
      exact operandDue_append_cons ls vs (by rw [kind]; rfl)
    · exact fun hstops => hstops.of_mayEnd fun _ => trivial
  rwa [List.append_nil, List.append_assoc] at hlocated

/-- Between brackets. -/
theorem group {opening closing : Token} (h : Located t (.level 0) before after [tree])
    (opens : opening.kind = .openParen) (closes : closing.kind = .closeParen) :
    Located t .primary (opening :: before) (after ++ [closing]) [tree] := by
  show Located t .primary ([opening] ++ before) (after ++ [closing]) ([] ++ tree :: [])
  refine h.extend id ?_ id ?_ ?_
  · exact fun hvs => .group opens hvs closes
  · exact fun vs => operandDue_append_cons [] vs (by rw [opens]; rfl)
  · exact fun hstops => hstops.append_separator [] (by rw [closes]; decide)

/-- Before a factorial mark. -/
theorem factorial {mark : Token} (h : Located t .factor before after [tree])
    (kind : mark.kind = .factorial) :
    Located t .factor before (after ++ [mark]) [.factorial mark.offset tree] := by
  show Located t .factor ([] ++ before) (after ++ [mark]) ([] ++ Tree.factorial mark.offset tree :: [])
  refine h.extend (Tree.factorial mark.offset) ?_ ?_ (fun _ => by rw [List.nil_append]) ?_
  · exact fun hvs => .factorial hvs kind
  · exact fun hC => .factorial _ hC
  · -- a factor does not end with an operator and its right operand
    exact fun hstops => hstops.append_cons [] fun hends => hends.elim

/-- After a sign that negates. -/
theorem negation {sign : Token} (h : Located t .operand before after [tree])
    (kind : sign.kind ∈ TokenKind.negations) :
    Located t .operand (sign :: before) after [.negate sign.offset tree] := by
  have hlocated : Located t .operand ([sign] ++ before) (after ++ [])
      ([] ++ Tree.negate sign.offset tree :: []) := by
    refine h.extend (Tree.negate sign.offset) ?_ ?_ ?_ (fun hstops => hstops.of_mayEnd id)
    · intro vs u hvs
      rw [List.append_nil]
      exact .negation kind hvs
    · exact fun hC => .negate _ hC
    · exact fun vs => operandDue_append_cons [] vs (TokenKind.endsOperand_of_negation kind)
  rwa [List.append_nil] at hlocated

/-- After a plus sign. -/
theorem plus {sign : Token} (h : Located t .operand before after [tree]) (kind : sign.kind = .plus) :
    Located t .operand (sign :: before) after [tree] := by
  have hlocated : Located t .operand ([sign] ++ before) (after ++ []) ([] ++ tree :: []) := by
    refine h.extend id ?_ id ?_ (fun hstops => hstops.of_mayEnd id)
    · intro vs u hvs
      rw [List.append_nil]
      exact .plus kind hvs
    · exact fun vs => operandDue_append_cons [] vs (by rw [kind]; rfl)
  rwa [List.append_nil] at hlocated

section Operands

variable {op : Operator} {a : Token} {l r : Tree}

/-- In the left operand of an operator. -/
theorem leftOperand {rs : List Token} (h : Located t (.level op.precedence) before after [l])
    (kind : a.kind.operator? = some op) (right : Reads (.level (op.precedence + 1)) rs [r]) :
    Located t (.level op.precedence) before (after ++ a :: rs) [.operation op a.offset l r] := by
  show Located t _ ([] ++ before) (after ++ a :: rs) ([] ++ Tree.operation op a.offset l r :: [])
  refine h.extend (fun u => .operation op a.offset u r) ?_ ?_ (fun _ => by rw [List.nil_append]) ?_
  · exact fun hvs => .operation hvs kind (Operator.mem_level_iff.mpr rfl) right
  · exact fun hC => .left _ _ hC r
  · -- what ends with an operator of this level stands before one of it
    refine fun hstops => hstops.append_cons rs fun hends => ⟨?_, ?_⟩
    · intro hmark
      rw [hmark] at kind
      cases kind
    · intro o ho
      rw [kind] at ho
      cases ho
      exact hends

/-- In the right operand of an operator. -/
theorem rightOperand {ls : List Token} (h : Located t (.level (op.precedence + 1)) before after [r])
    (left : Reads (.level op.precedence) ls [l]) (kind : a.kind.operator? = some op) :
    Located t (.level op.precedence) (ls ++ a :: before) after [.operation op a.offset l r] := by
  have hlocated : Located t (.level op.precedence) ((ls ++ [a]) ++ before) (after ++ [])
      ([] ++ Tree.operation op a.offset l r :: []) := by
    refine h.extend (Tree.operation op a.offset l) ?_ ?_ ?_ ?_
    · intro vs u hvs
      rw [List.append_nil, List.append_assoc]
      exact .operation left kind (Operator.mem_level_iff.mpr rfl) hvs
    · exact fun hC => .right _ _ l hC
    · intro vs
      rw [List.append_assoc]
      exact operandDue_append_cons ls vs (TokenKind.endsOperand_of_operator kind)
    · exact fun hstops => hstops.of_mayEnd fun hends => Nat.le_of_succ_le hends
  rwa [List.append_nil, List.append_assoc] at hlocated

end Operands

/-- The token itself, as it roots the whole tree. -/
theorem of_roots {due : Bool} {ls rs : List Token} (roots : Roots t due s ls rs tree) :
    Located t s ls rs [tree] := by
  have hlocated := Located.intro roots (Frame.hole s)
  rwa [List.append_nil] at hlocated

end Located

/-- Where a token is, when another one stands between tokens. -/
theorem exists_split {ls rs before after : List Token} {a t : Token}
    (h : ls ++ a :: rs = before ++ t :: after) :
    (∃ after', after = after' ++ a :: rs ∧ ls = before ++ t :: after') ∨
      (ls = before ∧ a = t ∧ rs = after) ∨
      ∃ before', before = ls ++ a :: before' ∧ rs = before' ++ t :: after := by
  rcases List.append_eq_append_iff.mp h with ⟨mid, rfl, hmid⟩ | ⟨mid, rfl, hmid⟩
  · cases mid with
    | nil =>
      obtain ⟨rfl, rfl⟩ := List.cons.inj hmid
      exact .inr (.inl ⟨(List.append_nil ls).symm, rfl, rfl⟩)
    | cons b mid =>
      obtain ⟨rfl, rfl⟩ := List.cons.inj hmid
      exact .inr (.inr ⟨mid, rfl, rfl⟩)
  · cases mid with
    | nil =>
      obtain ⟨rfl, rfl⟩ := List.cons.inj hmid
      exact .inr (.inl ⟨List.append_nil before, rfl, rfl⟩)
    | cons b mid =>
      obtain ⟨rfl, rfl⟩ := List.cons.inj hmid
      exact .inl ⟨mid, rfl, rfl⟩

/-- Where a token is, after a first one. -/
theorem exists_split_cons {ts before after : List Token} {a t : Token}
    (h : a :: ts = before ++ t :: after) :
    (a = t ∧ before = [] ∧ ts = after) ∨ ∃ before', before = a :: before' ∧ ts = before' ++ t :: after := by
  cases before with
  | nil =>
    obtain ⟨rfl, rfl⟩ := List.cons.inj h
    exact .inl ⟨rfl, rfl, rfl⟩
  | cons b before =>
    obtain ⟨rfl, rfl⟩ := List.cons.inj h
    exact .inr ⟨before, rfl, rfl⟩

/-- Where a token is, before a last one. -/
theorem exists_split_concat {ts before after : List Token} {a t : Token}
    (h : ts ++ [a] = before ++ t :: after) (other : a ≠ t) :
    ∃ after', after = after' ++ [a] ∧ ts = before ++ t :: after' := by
  rcases exists_split h with hleft | ⟨-, heq, -⟩ | ⟨before', -, hnil⟩
  · exact hleft
  · exact absurd heq other
  · exact absurd hnil.symm (List.append_ne_nil_of_right_ne_nil before' (List.cons_ne_nil t after))

/-- **Where an operator or a sign is** in a phrase: it roots a part of the tree, in some frame. -/
theorem Reads.located {s : Stratum} {ts : List Token} {trees : List Tree} (h : Reads s ts trees)
    {before after : List Token} {t : Token} {op : Operator} (kind : t.kind.operator? = some op)
    (signed : t.kind ≠ .plus) (split : ts = before ++ t :: after) : Located t s before after trees := by
  -- a token of another kind is another one
  have hother : ∀ {a : Token} {k : TokenKind}, a.kind = k → k.operator? = none → a ≠ t := by
    rintro a k hk hnone rfl
    rw [hk, hnone] at kind
    cases kind
  -- no phrase of one token has it
  have hone : ∀ {a : Token} {before after : List Token}, [a] = before ++ t :: after → a = t := by
    intro a before after h
    rcases exists_split_cons h with ⟨heq, -, -⟩ | ⟨before', -, hnil⟩
    · exact heq
    · exact absurd hnil.symm (List.append_ne_nil_of_right_ne_nil before' (List.cons_ne_nil t after))
  induction h generalizing before after with
  | number kind' => exact absurd (hone split) (hother kind' rfl)
  | constant kind' known => exact absurd (hone split) (hother kind' rfl)
  | group opens inner closes ih =>
    obtain ⟨before, rfl, later⟩ :=
      (exists_split_cons split).resolve_left fun heq => hother opens rfl heq.1
    obtain ⟨after, rfl, inside⟩ := exists_split_concat later (hother closes rfl)
    exact (ih inside).group opens closes
  | call kind' known opens inner closes arity ih =>
    obtain ⟨before₁, rfl, later₁⟩ :=
      (exists_split_cons split).resolve_left fun heq => hother kind' rfl heq.1
    obtain ⟨before, rfl, later⟩ :=
      (exists_split_cons later₁).resolve_left fun heq => hother opens rfl heq.1
    obtain ⟨after, rfl, inside⟩ := exists_split_concat later (hother closes rfl)
    exact (ih inside).call kind' known opens closes arity
  | factorial inner kind' ih =>
    obtain ⟨after, rfl, inside⟩ := exists_split_concat split (hother kind' rfl)
    exact (ih inside).factorial kind'
  | negation kind' inner ih =>
    rcases exists_split_cons split with ⟨rfl, rfl, rfl⟩ | ⟨before, rfl, inside⟩
    · exact .of_roots (.sign kind' inner)
    · exact (ih inside).negation kind'
  | plus kind' inner ih =>
    obtain ⟨before, rfl, inside⟩ :=
      (exists_split_cons split).resolve_left fun heq => signed (heq.1 ▸ kind')
    exact (ih inside).plus kind'
  | operation left kind' level right ihl ihr =>
    obtain rfl := Operator.mem_level_iff.mp level
    rcases exists_split split with ⟨after, rfl, inside⟩ | ⟨rfl, rfl, rfl⟩ | ⟨before, rfl, inside⟩
    · exact (ihl inside).leftOperand kind' right
    · exact .of_roots (.operator left kind' right)
    · exact (ihr inside).rightOperand left kind'
  | comma left kind' right ihl ihr =>
    rcases exists_split split with ⟨after, rfl, inside⟩ | ⟨-, heq, -⟩ | ⟨before, rfl, inside⟩
    · exact (ihl inside).comma kind' right
    · exact absurd heq (hother kind' rfl)
    · exact (ihr inside).lastArgument left kind'
  | primary inner ih => exact (ih split).of_reads .primary fun hends => hends
  | factor inner ih => exact (ih split).of_reads .factor fun hends => hends
  | operand inner ih => exact (ih split).of_reads .operand fun hends => hends.elim
  | lower inner ih => exact (ih split).of_reads .lower fun hends => Nat.le_of_succ_le hends
  | argument inner ih => exact (ih split).of_reads .argument fun _ => trivial

end Reckoner
