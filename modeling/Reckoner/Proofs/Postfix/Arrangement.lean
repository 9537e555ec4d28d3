import Reckoner.Proofs.Postfix.Transition

/-! # How entries wait

Which stacks an assembler can have, and what every token preserves about them. Nothing here depends
on which token is expected, so a pass may stop at any place and another one go on from there.

* **`Admits`** — the stacks on which a phrase of a given level may be read: nothing on top would come
  out for an operator of that level.
* **`Arranged`** — from the top down, every stretch between brackets is at most one call, which has
  its bracket above it, then negations, then operators each of which binds less than the one above.
* **`Assembler.Coherent`** — the stack is arranged, every waiting call has a counter, and the depth
  is the number of open brackets and of brackets that have been refused.
* **`Assembler.Step.coherent`** — every effect of a token preserves this. -/

namespace Reckoner

/-- Whether a waiting entry is a call. -/
def Pending.isCall : Pending → Bool
  | .call .. => true
  | _ => false

section Counting

variable (o : Nat) (f : Function) (ps : List Pending)

/-- An open bracket is counted. -/
@[simp] theorem countP_isParen_paren :
    (Pending.paren o :: ps).countP Pending.isParen = ps.countP Pending.isParen + 1 :=
  List.countP_cons_of_pos rfl

/-- A call is no bracket. -/
@[simp] theorem countP_isParen_call :
    (Pending.call f o :: ps).countP Pending.isParen = ps.countP Pending.isParen :=
  List.countP_cons_of_neg Bool.false_ne_true

/-- Nor is a sign. -/
@[simp] theorem countP_isParen_negation :
    (Pending.negation o :: ps).countP Pending.isParen = ps.countP Pending.isParen :=
  List.countP_cons_of_neg Bool.false_ne_true

/-- Nor an operator. -/
@[simp] theorem countP_isParen_operation (op : Operator) :
    (Pending.operation op o :: ps).countP Pending.isParen = ps.countP Pending.isParen :=
  List.countP_cons_of_neg Bool.false_ne_true

/-- A bracket is no call. -/
@[simp] theorem countP_isCall_paren :
    (Pending.paren o :: ps).countP Pending.isCall = ps.countP Pending.isCall :=
  List.countP_cons_of_neg Bool.false_ne_true

/-- A call is counted. -/
@[simp] theorem countP_isCall_call :
    (Pending.call f o :: ps).countP Pending.isCall = ps.countP Pending.isCall + 1 :=
  List.countP_cons_of_pos rfl

/-- A sign is no call. -/
@[simp] theorem countP_isCall_negation :
    (Pending.negation o :: ps).countP Pending.isCall = ps.countP Pending.isCall :=
  List.countP_cons_of_neg Bool.false_ne_true

/-- Nor is an operator. -/
@[simp] theorem countP_isCall_operation (op : Operator) :
    (Pending.operation op o :: ps).countP Pending.isCall = ps.countP Pending.isCall :=
  List.countP_cons_of_neg Bool.false_ne_true

end Counting

namespace Pending.ComesOut

variable {ready : Pending → Bool} {q : Pending}

/-- What comes out for an operator comes out for one that binds less. -/
theorem of_le {m n : Nat} (hmn : m ≤ n) (h : q.ComesOut (Pending.bindsLeftOf n)) :
    q.ComesOut (Pending.bindsLeftOf m) := by
  refine ⟨?_, h.2⟩
  cases q with
  | operation op o =>
    have hop : n ≤ op.precedence := by simpa [Pending.bindsLeftOf] using h.1
    simpa [Pending.bindsLeftOf] using Nat.le_trans hmn hop
  | negation o => rfl
  | paren o => exact absurd rfl h.2
  | call f o => exact absurd rfl h.2

/-- What comes out under a condition comes out without one. -/
theorem of_all (h : q.ComesOut ready) : q.ComesOut fun _ => true :=
  ⟨rfl, h.2⟩

/-- No bracket comes out. -/
theorem isParen_eq_false (h : q.ComesOut ready) : q.isParen = false := by
  cases q with
  | paren o => exact absurd rfl h.2
  | _ => rfl

/-- No call comes out. -/
theorem isCall_eq_false (h : q.ComesOut ready) : q.isCall = false := by
  cases q with
  | call f o => exact absurd rfl h.2
  | _ => rfl

end Pending.ComesOut

/-! ## The order of the entries -/

/-- The stacks on which a phrase of level `n` may be read. Level `4` stands for operands: signs may
wait for them. -/
def Admits (n : Nat) : List Pending → Prop
  | [] => True
  | .paren _ :: _ => True
  | .call .. :: _ => False
  | .negation _ :: _ => 4 ≤ n
  | .operation op _ :: _ => op.precedence < n

/-- A looser operator admits as much. -/
theorem Admits.of_le {m n : Nat} {ps : List Pending} (hmn : m ≤ n) (h : Admits m ps) :
    Admits n ps := by
  cases ps with
  | nil => trivial
  | cons p ps =>
    cases p with
    | paren o => trivial
    | call f o => exact h
    | negation o => exact Nat.le_trans h hmn
    | operation op o => exact Nat.lt_of_lt_of_le h hmn

/-- Nothing below a phrase comes out for an operator of its level. -/
theorem Admits.stays {n : Nat} {ps : List Pending} (hn : n ≤ 3) (h : Admits n ps) :
    ∀ q ∈ ps.head?, ¬ q.ComesOut (Pending.bindsLeftOf n) := by
  intro q hq hout
  cases ps with
  | nil => cases hq
  | cons p ps =>
    cases hq
    cases q with
    | paren o => exact hout.2 rfl
    | call f o => exact h
    | negation o => exact absurd (Nat.le_trans h hn) (by decide)
    | operation op o =>
      have hop : n ≤ op.precedence := by simpa [Pending.bindsLeftOf] using hout.1
      exact absurd (Nat.lt_of_lt_of_le h hop) (Nat.lt_irrefl _)

/-- The stacks of an assembler, the latest entry first. -/
inductive Arranged : List Pending → Prop
  | nil : Arranged []
  | paren {o : Nat} {ps : List Pending} (rest : Arranged ps) : Arranged (.paren o :: ps)
  | call {o name : Nat} {f : Function} {ps : List Pending} (rest : Arranged ps) :
      Arranged (.paren o :: .call f name :: ps)
  | negation {o : Nat} {ps : List Pending} (rest : Arranged ps) : Arranged (.negation o :: ps)
  | operation {op : Operator} {o : Nat} {ps : List Pending} (rest : Arranged ps)
      (admits : Admits op.precedence ps) : Arranged (.operation op o :: ps)

namespace Arranged

variable {qs ps : List Pending}

/-- What is left after some entries have come out is arranged. -/
theorem of_append {ready : Pending → Bool} (hqs : ∀ q ∈ qs, q.ComesOut ready)
    (h : Arranged (qs ++ ps)) : Arranged ps := by
  induction qs with
  | nil => exact h
  | cons q qs ih =>
    have hrest : ∀ r ∈ qs, r.ComesOut ready := fun r hr => hqs r (List.mem_cons_of_mem q hr)
    have hq : q.ComesOut ready := hqs q (List.mem_cons_self ..)
    rw [List.cons_append] at h
    generalize hps : qs ++ ps = below at h
    -- no bracket comes out, so the rules for brackets do not apply
    cases h with
    | paren rest => exact absurd rfl hq.2
    | call rest => exact absurd rfl hq.2
    | negation rest => exact ih hrest (hps ▸ rest)
    | operation rest admits => exact ih hrest (hps ▸ rest)

/-- When everything has come out down to a bracket, a bracket is on top, if any is open. -/
theorem eq_nil_or_paren (h : Arranged ps)
    (stays : ∀ q ∈ ps.head?, ¬ q.ComesOut fun _ => true) :
    ps = [] ∨ ∃ o below, ps = .paren o :: below := by
  cases h with
  | nil => exact .inl rfl
  | paren rest => exact .inr ⟨_, _, rfl⟩
  | call rest => exact .inr ⟨_, _, rfl⟩
  | negation rest => exact absurd (Pending.comesOut_negation rfl) (stays _ rfl)
  | operation rest admits => exact absurd (Pending.comesOut_operation rfl) (stays _ rfl)

/-- What stays for an operator admits it. -/
theorem admits {op : Operator} (h : Arranged ps)
    (stays : ∀ q ∈ ps.head?, ¬ q.ComesOut (Pending.bindsLeftOf op.precedence)) :
    Admits op.precedence ps := by
  cases h with
  | nil => trivial
  | paren rest => trivial
  | call rest => trivial
  | negation rest => exact absurd (Pending.comesOut_negation rfl) (stays _ rfl)
  | @operation top o ps rest admits =>
    -- an operator that binds as much comes out, so the one on top binds less
    by_cases hle : op.precedence ≤ top.precedence
    · have hready : Pending.bindsLeftOf op.precedence (.operation top o) = true := by
        simpa [Pending.bindsLeftOf] using hle
      exact absurd (Pending.comesOut_operation hready) (stays _ rfl)
    · exact Nat.lt_of_not_le hle

end Arranged

/-- What never comes out is not among what comes out. -/
theorem countP_of_comesOut {ready p : Pending → Bool} {qs : List Pending}
    (hqs : ∀ q ∈ qs, q.ComesOut ready) (hp : ∀ q : Pending, q.ComesOut ready → p q = false) :
    qs.countP p = 0 := by
  rw [List.countP_eq_zero]
  intro q hq
  rw [hp q (hqs q hq)]
  exact Bool.false_ne_true

/-! ## What every token preserves -/

/-- How many brackets a token's effect refuses for being too deep. -/
def Progress.refusals : Progress → Nat
  | .fault f => if f.kind = .nestingTooDeep then 1 else 0
  | _ => 0

namespace Assembler

/-- What holds of an assembler that has **refused so many brackets** for being too deep. -/
structure Coherent (refusals : Nat) (a : Assembler) : Prop where
  arranged : Arranged a.pending
  /-- Every waiting call has a counter. -/
  counted : a.counts.length = a.pending.countP Pending.isCall
  /-- An open call has one argument at least. -/
  positive : ∀ n ∈ a.counts, 1 ≤ n
  /-- A refused bracket is counted, but does not wait. -/
  depth : a.depth = a.pending.countP Pending.isParen + refusals

/-- Releasing operators leaves the counts of arguments. -/
@[simp] theorem releaseToParen_counts (a : Assembler) : a.releaseToParen.counts = a.counts := rfl

/-- And it leaves the depth. -/
@[simp] theorem releaseToParen_depth (a : Assembler) : a.releaseToParen.depth = a.depth := rfl

/-- A new assembler is coherent. -/
theorem coherent_start (source : String) (maxDepth : Int) : Coherent 0 (start source maxDepth) where
  arranged := .nil
  counted := rfl
  positive := by simp [start]
  depth := rfl

namespace Coherent

variable {a : Assembler} {k : Nat}

/-- Emitting an instruction changes no stack. -/
theorem emit (h : Coherent k a) (i : Instruction) : Coherent k (a.emit i) :=
  ⟨h.arranged, h.counted, h.positive, h.depth⟩

/-- Releasing keeps the brackets and the calls. -/
theorem release (h : Coherent k a) (ready : Pending → Bool) :
    ∃ rest out, Reckoner.release ready a.pending a.emitted = (rest, out) ∧
      (∀ q ∈ rest.head?, ¬ q.ComesOut ready) ∧
      Coherent k { a with pending := rest, emitted := out } := by
  obtain ⟨qs, rest, hsplit, hqs, hrest, hrelease⟩ := exists_release ready a.pending a.emitted
  -- neither a bracket nor a call is among what comes out
  have hparens : a.pending.countP Pending.isParen = rest.countP Pending.isParen := by
    rw [hsplit, List.countP_append, countP_of_comesOut hqs fun q => Pending.ComesOut.isParen_eq_false,
      Nat.zero_add]
  have hcalls : a.pending.countP Pending.isCall = rest.countP Pending.isCall := by
    rw [hsplit, List.countP_append, countP_of_comesOut hqs fun q => Pending.ComesOut.isCall_eq_false,
      Nat.zero_add]
  refine ⟨rest, drain qs a.emitted, hrelease, hrest, ?_⟩
  exact {
    arranged := (hsplit ▸ h.arranged).of_append hqs
    counted := hcalls ▸ h.counted
    positive := h.positive
    depth := hparens ▸ h.depth }

/-- Releasing operators keeps the arrangement. -/
theorem releaseToParen (h : Coherent k a) : Coherent k a.releaseToParen := by
  obtain ⟨rest, out, hrelease, -, hrest⟩ := h.release fun _ => true
  rw [Assembler.releaseToParen, hrelease]
  exact hrest

/-- And so does putting an operator in their place. -/
theorem suspend (h : Coherent k a) (op : Operator) (offset : Nat) :
    Coherent k (a.suspend op offset) := by
  obtain ⟨rest, out, hrelease, hstays, hrest⟩ := h.release (Pending.bindsLeftOf op.precedence)
  rw [Assembler.suspend, hrelease]
  exact {
    arranged := .operation hrest.arranged (hrest.arranged.admits hstays)
    counted := hrest.counted.trans (countP_isCall_operation offset rest op).symm
    positive := hrest.positive
    depth := by
      rw [countP_isParen_operation]
      exact hrest.depth }

/-- A bracket that is refused is counted, but does not wait. -/
theorem refuse (h : Coherent k a) : Coherent (k + 1) { a with depth := a.depth + 1 } :=
  ⟨h.arranged, h.counted, h.positive, by rw [h.depth]; rfl⟩

/-- A waiting call has a counter, which is on top when the call is innermost. -/
theorem exists_count {o name : Nat} {f : Function} {below : List Pending} (h : Coherent k a)
    (top : a.pending = .paren o :: .call f name :: below) :
    ∃ n ns, a.counts = n :: ns ∧ 1 ≤ n := by
  have hcounted := h.counted
  rw [top] at hcounted
  cases hcounts : a.counts with
  | nil =>
    -- no counter is one too few
    rw [hcounts, countP_isCall_paren, countP_isCall_call] at hcounted
    cases hcounted
  | cons n ns => exact ⟨n, ns, rfl, h.positive n (by rw [hcounts]; exact List.mem_cons_self ..)⟩

/-- A call leaves the stacks. -/
theorem afterCall {o name : Nat} {f : Function} {below : List Pending} (h : Coherent k a)
    (top : a.releaseToParen.pending = .paren o :: .call f name :: below) :
    Coherent k (a.afterCall below) := by
  have hrel := h.releaseToParen
  have hcounted := hrel.counted
  have hdepth := hrel.depth
  have harranged := hrel.arranged
  rw [top] at hcounted hdepth harranged
  have hcounts : a.counts.length = below.countP Pending.isCall + 1 := by simpa using hcounted
  have hparens : a.depth = below.countP Pending.isParen + 1 + k := by simpa using hdepth
  constructor
  · cases harranged with
    | paren rest => cases rest
    | call rest => exact rest
  · show a.counts.tail.length = below.countP Pending.isCall
    rw [List.length_tail, hcounts]
    rfl
  · intro n hn
    exact h.positive n (List.mem_of_mem_tail hn)
  · show a.depth - 1 = below.countP Pending.isParen + k
    omega

/-- A bracket that belongs to no call leaves the stack. -/
theorem afterGroup {o : Nat} {below : List Pending} (h : Coherent k a)
    (top : a.releaseToParen.pending = .paren o :: below)
    (plain : ∀ f name rest, below ≠ .call f name :: rest) :
    Coherent k { a.releaseToParen with pending := below, depth := a.depth - 1 } := by
  have hrel := h.releaseToParen
  have hcounted := hrel.counted
  have hdepth := hrel.depth
  have harranged := hrel.arranged
  rw [top] at hcounted hdepth harranged
  have hparens : a.depth = below.countP Pending.isParen + 1 + k := by simpa using hdepth
  constructor
  · cases harranged with
    | paren rest => exact rest
    | call rest => exact absurd rfl (plain _ _ _)
  · exact hcounted.trans (countP_isCall_paren o below)
  · exact h.positive
  · show a.depth - 1 = below.countP Pending.isParen + k
    omega

end Coherent

/-- **Every effect of a token preserves coherence**, faults included. -/
theorem Step.coherent {a a' : Assembler} {t : Token} {e : Expectation} {progress : Progress}
    (step : Step a t e progress a') {k : Nat} (h : Coherent k a) :
    Coherent (k + progress.refusals) a' := by
  -- a fault leaves what the handler has changed before it, so it is a case like any other
  cases step with
  | illegal kind => exact h
  | negation due kind =>
    refine ⟨.negation h.arranged, ?_, h.positive, ?_⟩
    · rw [countP_isCall_negation]
      exact h.counted
    · rw [countP_isParen_negation]
      exact h.depth
  | plus due kind => exact h
  | number due kind => exact h.emit _
  | constant due kind known => exact h.emit _
  | unknownVariable due kind unknown => exact h
  | name due kind known => exact h
  | unknownFunction due kind unknown => exact h
  | tooDeep kind deep place => exact h.refuse
  | group due kind fits =>
    -- the depth and the stack grow by the same bracket
    refine ⟨.paren h.arranged, ?_, h.positive, ?_⟩
    · rw [countP_isCall_paren]
      exact h.counted
    · rw [countP_isParen_paren]
      show a.depth + 1 = a.pending.countP Pending.isParen + 1 + k
      have hdepth := h.depth
      omega
  | call kind fits =>
    refine ⟨.call h.arranged, ?_, ?_, ?_⟩
    · rw [countP_isCall_paren, countP_isCall_call, ← h.counted]
      rfl
    · intro n hn
      rcases List.mem_cons.mp hn with rfl | hn
      · exact Nat.le_refl 1
      · exact h.positive n hn
    · rw [countP_isParen_paren, countP_isParen_call]
      show a.depth + 1 = a.pending.countP Pending.isParen + 1 + k
      have hdepth := h.depth
      omega
  | endsBeforeOperand due kind => exact h
  | notAnOperand due sign kind => exact h
  | emptyParens kind => exact h
  | operator kind => exact h.suspend _ _
  | factorial kind => exact h.emit _
  | comma kind top =>
    -- only the counter of the innermost call changes, and it grows
    have hrel := h.releaseToParen
    refine ⟨hrel.arranged, ?_, ?_, hrel.depth⟩
    · rw [← hrel.counted]
      exact List.length_modifyHead
    · obtain ⟨n, ns, hcounts, hn⟩ := hrel.exists_count top
      have hsame : a.counts = n :: ns := hcounts
      intro m hm
      rw [hsame] at hm
      rcases List.mem_cons.mp hm with rfl | hm
      · exact Nat.le_add_left 1 n
      · exact h.positive m (hsame ▸ List.mem_cons_of_mem n hm)
  | misplacedComma kind top => exact h.releaseToParen
  | closeCall kind top arity => exact (h.afterCall top).emit _
  | arityMismatch kind top arity differs => exact h.afterCall top
  | closeGroup kind top plain => exact h.afterGroup top plain
  | unmatchedClose kind top => exact h.releaseToParen
  | complete kind closed => exact h.releaseToParen
  | unclosed kind first => exact h
  | missingOperator sign kind => exact h

/-- **Accepting a token keeps the arrangement**, whatever comes of it. -/
theorem Coherent.accept {a a' : Assembler} {e : Expectation} {t : Token} {progress : Progress}
    {k : Nat} (h : Coherent k a) (hacc : a.accept e t = (progress, a')) :
    Coherent (k + progress.refusals) a' :=
  (step_of_accept hacc).coherent h

end Assembler

end Reckoner
