import Reckoner.Fault
import Reckoner.Postfix.Program

/-! # Running programs

A program runs on a stack of numbers, which is empty at first and should hold one number, the
result, at the end.

* **`Failure`** — why a run stops: a fault, a message that cannot be written, or a reducer that has no
  element to return.
* **`Failure.ofFault`** — the failure that a fault leads to.
* **`Instruction.execute`** — the effect of one instruction on the stack.
* **`execute`** — the effect of a sequence of instructions.
* **`Program.run`** — the result of a program. -/

namespace Reckoner

/-- Why a run stops. -/
inductive Failure where
  | fault (fault : Fault)
  /-- The message of a fault is too large to be written. -/
  | excess (excess : Excess)
  /-- The first or last of no arguments is asked for. -/
  | noElement
  deriving DecidableEq, Repr

namespace Failure

/-- The text that says why a run stops. -/
def message : Failure → String
  | .fault f => f.message
  | .excess e => e.message
  | .noElement => Rejection.noElement.message

/-- **The failure that a fault leads to.** A fault is reported with its message; when that cannot be
written, this failure comes in its place. -/
def ofFault (f : Fault) : Failure := if f.cause.isOverlong then .excess .digitsWritten else .fault f

/-- A fault with a message that can be written is reported. -/
@[simp] theorem ofFault_of_short {f : Fault} (short : f.cause.isOverlong = false) :
    ofFault f = .fault f := by
  rw [ofFault, if_neg (Bool.not_eq_true _ ▸ short)]

/-- A fault with a message that cannot be written is not reported. -/
@[simp] theorem ofFault_of_overlong {f : Fault} (overlong : f.cause.isOverlong = true) :
    ofFault f = .excess .digitsWritten := if_pos overlong

/-- Only a fault with a message that can be written is reported. -/
@[simp] theorem ofFault_eq_fault_iff {f g : Fault} :
    ofFault f = .fault g ↔ f.cause.isOverlong = false ∧ f = g := by
  cases h : f.cause.isOverlong with
  | false => simp [ofFault_of_short h]
  | true => simp [ofFault_of_overlong h]

/-- A fault never stands for an element that is missing. -/
@[simp] theorem ofFault_ne_noElement (f : Fault) : ofFault f ≠ .noElement := by
  unfold ofFault
  split <;> simp

end Failure

/-- The numbers that a program works on, the latest first. -/
abbrev Stack := List Binary64

namespace Instruction

/-- The fault of an instruction that finds too few operands. It points at one character at least. -/
def lackingOperands (source : String) (i : Instruction) (demand : Demand)
    (needed available : Nat) : Failure :=
  .ofFault ⟨.missingOperands demand needed available, source, i.span.offset, max i.span.length 1⟩

/-- The effect of a call: the last `arity` operands, in the order in which they were pushed, give way
to the value of the function. A wrong arity is found before missing operands. -/
def executeCall [Numerics] (source : String) (f : Function) (arity : Nat) (span : Span) (stack : Stack) :
    Except Failure Stack :=
  if f.arity?.any (· ≠ arity) then
    .error (.ofFault ⟨.unresolvedArity f.name arity (f.arity?.getD arity), source, span.offset,
      span.length⟩)
  else if stack.length < arity then
    .error (lackingOperands source (.call f arity span) (.call f.name) arity stack.length)
  else
    match f.apply (stack.take arity).reverse with
    | .ok value => .ok (value :: stack.drop arity)
    | .error .noElement => .error .noElement
    | .error reason =>
      .error (.fault ⟨.domain f.name reason.message, source, span.offset, span.length⟩)

/-- The **effect of an instruction** on the stack. -/
def execute [Numerics] (source : String) (i : Instruction) (stack : Stack) : Except Failure Stack :=
  match i, stack with
  | .number value _, stack => .ok (value :: stack)
  | .negate _, x :: rest => .ok (-x :: rest)
  | .negate _, [] => .error (i.lackingOperands source .negation 1 0)
  | .factorial _, x :: rest => .ok (x.factorial :: rest)
  | .factorial _, [] => .error (i.lackingOperands source .factorial 1 0)
  | .operation op _, y :: x :: rest => .ok (op.apply x y :: rest)
  | .operation op _, stack =>
    .error (i.lackingOperands source (.operation op.symbol) 2 stack.length)
  | .call f arity span, stack => executeCall source f arity span stack
  | .unknown shown, _ => .error (.fault (.unplaced (.unknownInstruction shown) source))

end Instruction

/-- The effect of a sequence of instructions on the stack. -/
def execute [Numerics] (source : String) : List Instruction → Stack → Except Failure Stack
  | [], stack => .ok stack
  | i :: rest, stack =>
    match i.execute source stack with
    | .ok stack' => execute source rest stack'
    | .error e => .error e

/-- Nothing to run leaves the stack as it is. -/
@[simp] theorem execute_nil [Numerics] (source : String) (stack : Stack) :
    execute source [] stack = .ok stack := rfl

/-- Running two sequences one after the other is running their concatenation. -/
@[simp] theorem execute_append [Numerics] (source : String) (is js : List Instruction) (stack : Stack) :
    execute source (is ++ js) stack =
      (execute source is stack).bind (execute source js) := by
  induction is generalizing stack with
  | nil => rfl
  | cons i rest ih =>
    simp only [List.cons_append, execute]
    cases i.execute source stack with
    | ok stack' => exact ih stack'
    | error e => rfl

/-- The **result of a program**: the one number that it leaves. -/
def Program.run [Numerics] (p : Program) : Except Failure Binary64 :=
  match execute p.source p.instructions [] with
  | .error e => .error e
  | .ok [value] => .ok value
  | .ok stack => .error (.fault (.unplaced (.leftover stack.length) p.source))

end Reckoner
