import Mathlib.Algebra.GroupWithZero.Nat
import Reckoner.Proofs.Postfix.Arrangement
import Reckoner.Proofs.Postfix.Height

/-! # What has come out suffices for what waits

An assembler that is used again after a fault holds instructions, waiting entries and counted
arguments of unfinished expressions. Still the instructions that have come out leave enough values for
all that will come out later, and how many values they leave beyond that changes only by a fault.

* **`owed`** — how many values more than one the waiting entries will consume.
* **`Assembler.Supplied`** — the instructions so far are resolved, and leave what is owed and a given
  excess.
* **`Assembler.Step.supplied`** — every token preserves this, and every token without a fault keeps
  the excess. -/

namespace Reckoner

/-- Whether a waiting entry is an operator. -/
def Pending.isOperation : Pending → Bool
  | .operation .. => true
  | _ => false

/-- How many values are **owed**: a waiting operator and an argument before the last one consume one
value each more than they leave. -/
def owed (ps : List Pending) (counts : List Nat) : Nat :=
  ps.countP Pending.isOperation + (counts.map (· - 1)).sum

section Owed

variable (o : Nat) (ps : List Pending) (counts : List Nat)

/-- Nothing that waits owes nothing. -/
@[simp] theorem owed_nil : owed [] [] = 0 := rfl

/-- A bracket owes nothing. -/
@[simp] theorem owed_paren : owed (.paren o :: ps) counts = owed ps counts := by
  rw [owed, owed, List.countP_cons_of_neg Bool.false_ne_true]

/-- Nor does a sign. -/
@[simp] theorem owed_negation : owed (.negation o :: ps) counts = owed ps counts := by
  rw [owed, owed, List.countP_cons_of_neg Bool.false_ne_true]

/-- An operator owes an operand. -/
@[simp] theorem owed_operation (op : Operator) :
    owed (.operation op o :: ps) counts = owed ps counts + 1 := by
  rw [owed, owed, List.countP_cons_of_pos rfl, Nat.add_right_comm]

/-- A call owes all its arguments but one. -/
theorem owed_call (f : Function) {n : Nat} (hn : 1 ≤ n) :
    owed (.call f o :: ps) (n :: counts) + 1 = owed ps counts + n := by
  rw [owed, owed, List.countP_cons_of_neg Bool.false_ne_true, List.map_cons, List.sum_cons]
  omega

/-- One more argument of the innermost call is owed. -/
theorem owed_succ {n : Nat} (hn : 1 ≤ n) :
    owed ps ((n + 1) :: counts) = owed ps (n :: counts) + 1 := by
  rw [owed, owed, List.map_cons, List.map_cons, List.sum_cons, List.sum_cons]
  omega

end Owed

/-- How many operands have been read since the last one was due: one where an operator is due. -/
def Expectation.surplus : Expectation → Nat
  | .operator => 1
  | _ => 0

/-- Where an operand is due, there is none in surplus. -/
theorem Expectation.TakesOperand.surplus_eq {e : Expectation} {t : Token} (due : e.TakesOperand t) :
    e.surplus = 0 := by
  cases e with
  | operator => exact due.elim
  | _ => rfl

/-- How many operands have been read since the last one was due, after a token. A pass that ends with
a fault is followed by one that begins where an operand is due. -/
def Progress.surplus : Progress → Nat
  | .continue e => e.surplus
  | .complete => 1
  | .fault _ => 0

namespace Assembler

/-- The instructions that have come out **supply** what waits: they are resolved, and leave the values
that are owed, those of the operands just read, and so many in excess. -/
structure Supplied (excess surplus : Nat) (a : Assembler) : Prop where
  resolved : ∀ i ∈ a.emitted, i.Resolved
  height : height? a.emitted.reverse 0 = some (owed a.pending a.counts + surplus + excess)

/-- A new assembler is supplied. -/
theorem supplied_start (source : String) (maxDepth : Int) : Supplied 0 0 (start source maxDepth) where
  resolved := by simp [start]
  height := rfl

namespace Supplied

variable {a a' : Assembler} {x y m n : Nat}

/-- Only the instructions and what is owed matter. -/
theorem congr (h : Supplied x m a) (emitted : a'.emitted = a.emitted)
    (height : owed a'.pending a'.counts + n + y = owed a.pending a.counts + m + x) :
    Supplied y n a' where
  resolved := emitted ▸ h.resolved
  height := by rw [emitted, h.height, height]

/-- An instruction comes out that finds its operands. -/
theorem emit (h : Supplied x m a) {i : Instruction} (hi : i.Resolved)
    (emitted : a'.emitted = i :: a.emitted)
    (enough : i.operands ≤ owed a.pending a.counts + m + x)
    (height : owed a'.pending a'.counts + n + y =
      owed a.pending a.counts + m + x - i.operands + 1) : Supplied y n a' where
  resolved := by
    rw [emitted]
    intro j hj
    rcases List.mem_cons.mp hj with rfl | hj
    · exact hi
    · exact h.resolved j hj
  height := by rw [emitted, List.reverse_cons, height?_concat h.height enough, height]

/-- **What waits finds its operands when it comes out**: a negation takes the operand just read, and
an operator one more, which is owed to it. -/
theorem drain {qs rest : List Pending} {ready : Pending → Bool} (h : Supplied x 1 a)
    (hpending : a.pending = qs ++ rest) (hqs : ∀ q ∈ qs, q.ComesOut ready) :
    Supplied x 1 { a with pending := rest, emitted := Reckoner.drain qs a.emitted } := by
  induction qs generalizing a with
  | nil =>
    rw [List.nil_append] at hpending
    subst hpending
    exact h
  | cons q qs ih =>
    have hq := hqs q (List.mem_cons_self ..)
    have hrest : ∀ r ∈ qs, r.ComesOut ready := fun r hr => hqs r (List.mem_cons_of_mem q hr)
    rw [List.cons_append] at hpending
    cases q with
    | paren o => exact absurd rfl hq.2
    | call f o => exact absurd rfl hq.2
    | negation o =>
      have howed : owed a.pending a.counts = owed (qs ++ rest) a.counts := by
        rw [hpending, owed_negation]
      have hnext : Supplied x 1 { a with pending := qs ++ rest, emitted := .negate o :: a.emitted } := by
        refine h.emit (i := .negate o) trivial rfl ?_ ?_
        · show 1 ≤ _
          omega
        · show owed (qs ++ rest) a.counts + 1 + x = owed a.pending a.counts + 1 + x - 1 + 1
          omega
      rw [drain_cons rfl]
      exact ih hnext rfl hrest
    | operation op o =>
      have howed : owed a.pending a.counts = owed (qs ++ rest) a.counts + 1 := by
        rw [hpending, owed_operation]
      have hnext : Supplied x 1
          { a with pending := qs ++ rest, emitted := .operation op o :: a.emitted } := by
        refine h.emit (i := .operation op o) trivial rfl ?_ ?_
        · show 2 ≤ _
          omega
        · show owed (qs ++ rest) a.counts + 1 + x = owed a.pending a.counts + 1 + x - 2 + 1
          omega
      rw [drain_cons rfl]
      exact ih hnext rfl hrest

/-- Releasing operators uses the operands that they owe. -/
theorem releaseToParen (h : Supplied x 1 a) : Supplied x 1 a.releaseToParen := by
  obtain ⟨qs, rest, hsplit, hqs, -, hrelease⟩ := exists_release (fun _ => true) a.pending a.emitted
  rw [Assembler.releaseToParen, hrelease]
  exact h.drain hsplit hqs

/-- An operator owes its right operand. -/
theorem suspend (h : Supplied x 1 a) (op : Operator) (offset : Nat) :
    Supplied x 0 (a.suspend op offset) := by
  obtain ⟨qs, rest, hsplit, hqs, -, hrelease⟩ :=
    exists_release (Pending.bindsLeftOf op.precedence) a.pending a.emitted
  rw [Assembler.suspend, hrelease]
  refine (h.drain hsplit hqs).congr rfl ?_
  rw [owed_operation]

/-- A fault leaves the operand just read in excess. -/
theorem fault (h : Supplied x m a) (emitted : a'.emitted = a.emitted)
    (pending : a'.pending = a.pending) (counts : a'.counts = a.counts) : Supplied (m + x) 0 a' := by
  refine h.congr emitted ?_
  rw [pending, counts, Nat.add_zero, Nat.add_assoc]

/-- After a fault the excess may be another one. -/
theorem refused {f : Fault} (h : Supplied y 0 a') :
    ∃ z, Supplied z (Progress.fault f).surplus a' ∧ ((∀ g, Progress.fault f ≠ .fault g) → z = x) :=
  ⟨y, h, fun hnone => absurd rfl (hnone f)⟩

/-- The arguments of a call whose bracket closes are owed to it, all but the last one, which has just
been read. -/
theorem exists_call {k o name : Nat} {f : Function} {below : List Pending} (h : Supplied x 1 a)
    (hc : Coherent k a) (top : a.releaseToParen.pending = .paren o :: .call f name :: below) :
    ∃ n, a.counts.headD 1 = n ∧ 1 ≤ n ∧ Supplied (n + x) 0 (a.afterCall below) := by
  obtain ⟨n, ns, hcounts, hn⟩ := hc.releaseToParen.exists_count top
  have hrel := h.releaseToParen
  have howed := owed_call name below ns f hn
  rw [← owed_paren o, ← top, ← hcounts] at howed
  rw [releaseToParen_counts] at hcounts
  refine ⟨n, by rw [hcounts, List.headD_cons], hn, hrel.congr rfl ?_⟩
  show owed below a.counts.tail + 0 + (n + x) = _
  rw [hcounts, List.tail_cons]
  omega

end Supplied

/-- **Every effect of a token keeps the assembler supplied**, faults included. Only a fault changes the
excess. -/
theorem Step.supplied {a a' : Assembler} {t : Token} {e : Expectation} {progress : Progress}
    (step : Step a t e progress a') {x k : Nat} (h : Supplied x e.surplus a) (hc : Coherent k a) :
    ∃ y, Supplied y progress.surplus a' ∧ ((∀ f, progress ≠ .fault f) → y = x) := by
  cases step with
  | illegal kind => exact (h.fault rfl rfl rfl).refused
  | unknownVariable due kind unknown => exact (h.fault rfl rfl rfl).refused
  | unknownFunction due kind unknown => exact (h.fault rfl rfl rfl).refused
  | tooDeep kind deep place => exact Supplied.refused (h.fault rfl rfl rfl)
  | endsBeforeOperand due kind => exact (h.fault rfl rfl rfl).refused
  | notAnOperand due sign kind => exact (h.fault rfl rfl rfl).refused
  | emptyParens kind => exact (h.fault rfl rfl rfl).refused
  | unclosed kind first => exact (h.fault rfl rfl rfl).refused
  | missingOperator sign kind => exact (h.fault rfl rfl rfl).refused
  | misplacedComma kind top =>
    exact ((Supplied.releaseToParen h).fault rfl rfl rfl).refused
  | unmatchedClose kind top =>
    exact ((Supplied.releaseToParen h).fault rfl rfl rfl).refused
  | arityMismatch kind top arity differs =>
    -- the arguments of the call are left over
    obtain ⟨n, -, -, hcall⟩ := Supplied.exists_call h hc top
    exact hcall.refused
  | negation due kind =>
    rw [due.surplus_eq] at h
    exact ⟨x, h.congr rfl (by rw [owed_negation]; rfl), fun _ => rfl⟩
  | plus due kind =>
    rw [due.surplus_eq] at h
    exact ⟨x, h, fun _ => rfl⟩
  | number due kind =>
    rw [due.surplus_eq] at h
    exact ⟨x, h.emit (i := .number _ _) trivial rfl (Nat.zero_le _) (Nat.add_right_comm ..),
      fun _ => rfl⟩
  | constant due kind known =>
    rw [due.surplus_eq] at h
    exact ⟨x, h.emit (i := .number _ _) trivial rfl (Nat.zero_le _) (Nat.add_right_comm ..),
      fun _ => rfl⟩
  | name due kind known =>
    rw [due.surplus_eq] at h
    exact ⟨x, h, fun _ => rfl⟩
  | group due kind fits =>
    rw [due.surplus_eq] at h
    exact ⟨x, h.congr rfl (by rw [owed_paren]; rfl), fun _ => rfl⟩
  | @call f name kind fits =>
    -- the first argument of a call is not owed
    refine ⟨x, h.congr rfl ?_, fun _ => rfl⟩
    have howed := owed_call name a.pending a.counts f (Nat.le_refl 1)
    rw [owed_paren, Nat.add_right_cancel howed]
    rfl
  | operator kind => exact ⟨x, h.suspend _ _, fun _ => rfl⟩
  | factorial kind =>
    refine ⟨x, h.emit (i := .factorial _) trivial rfl ?_ ?_, fun _ => rfl⟩
    · show 1 ≤ owed a.pending a.counts + 1 + x
      omega
    · show owed a.pending a.counts + 1 + x = owed a.pending a.counts + 1 + x - 1 + 1
      omega
  | comma kind top =>
    -- the argument just read is owed from now on
    obtain ⟨n, ns, hcounts, hn⟩ := hc.releaseToParen.exists_count top
    refine ⟨x, (Supplied.releaseToParen h).congr rfl ?_, fun _ => rfl⟩
    rw [hcounts]
    rw [releaseToParen_counts] at hcounts
    rw [hcounts, List.modifyHead_cons, owed_succ _ _ hn]
    rfl
  | @closeCall o name f below kind top arity =>
    -- the call takes its arguments, and leaves its value
    obtain ⟨n, hcount, hn, hcall⟩ := Supplied.exists_call h hc top
    rw [hcount] at arity ⊢
    refine ⟨x, hcall.emit (i := .call _ n _) ⟨hn, arity⟩ rfl ?_ ?_, fun _ => rfl⟩
    · show n ≤ _
      omega
    · show owed (a.afterCall below).pending (a.afterCall below).counts + 1 + x =
        owed (a.afterCall below).pending (a.afterCall below).counts + 0 + (n + x) - n + 1
      omega
  | closeGroup kind top plain =>
    refine ⟨x, (Supplied.releaseToParen h).congr rfl ?_, fun _ => rfl⟩
    rw [top, owed_paren]
    rfl
  | complete kind closed => exact ⟨x, Supplied.releaseToParen h, fun _ => rfl⟩

end Assembler

end Reckoner
