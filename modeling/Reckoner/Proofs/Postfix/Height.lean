import Reckoner.Postfix.Program

/-! # Counting operands

How high the stack of numbers is while a program runs can be counted without running it: every
instruction takes a number of operands and leaves one value.

* **`Instruction.operands`** — how many operands an instruction takes.
* **`Instruction.Resolved`** — whether an instruction is one of those that an expression can have.
* **`height?`** — the height of the stack after a sequence of instructions, if none of them lacks
  operands. -/

namespace Reckoner

namespace Instruction

/-- How many **operands** an instruction takes off the stack. -/
def operands : Instruction → Nat
  | .number .. => 0
  | .negate _ => 1
  | .operation .. => 2
  | .call _ arity _ => arity
  | .factorial _ => 1
  | .unknown _ => 0

/-- An instruction is **resolved** when it is known and, if it is a call, has one argument at least
and as many as its function takes. -/
def Resolved : Instruction → Prop
  | .call f arity _ => 1 ≤ arity ∧ ∀ n, f.arity? = some n → arity = n
  | .unknown _ => False
  | _ => True

end Instruction

/-- The **height of the stack** after instructions that find it with the given height. There is none
when an instruction lacks operands. -/
def height? : List Instruction → Nat → Option Nat
  | [], h => some h
  | i :: is, h => if i.operands ≤ h then height? is (h - i.operands + 1) else none

/-- Nothing to run leaves the height. -/
@[simp] theorem height?_nil (h : Nat) : height? [] h = some h := rfl

/-- The first instruction finds its operands, and the others go on from its height. -/
@[simp] theorem height?_cons_eq_some_iff {i : Instruction} {is : List Instruction} {h n : Nat} :
    height? (i :: is) h = some n ↔ i.operands ≤ h ∧ height? is (h - i.operands + 1) = some n := by
  rw [height?]
  by_cases enough : i.operands ≤ h
  · rw [if_pos enough]
    exact ⟨fun hn => ⟨enough, hn⟩, And.right⟩
  · rw [if_neg enough]
    exact ⟨fun hn => absurd hn (Option.some_ne_none n).symm, fun hn => absurd hn.1 enough⟩

/-- A second part goes on from the height of the first. -/
@[simp] theorem height?_append (is js : List Instruction) (h : Nat) :
    height? (is ++ js) h = (height? is h).bind (height? js) := by
  induction is generalizing h with
  | nil => rfl
  | cons i is ih =>
    rw [List.cons_append, height?, height?]
    split
    · exact ih _
    · rfl

/-- One more instruction that finds its operands. -/
@[simp] theorem height?_concat {is : List Instruction} {i : Instruction} {h n : Nat}
    (before : height? is h = some n) (enough : i.operands ≤ n) :
    height? (is ++ [i]) h = some (n - i.operands + 1) := by
  rw [height?_append, before, Option.bind_some, height?, if_pos enough, height?_nil]

/-- Every instruction of a sequence that has a height finds its operands. -/
theorem exists_height_of_append {before after : List Instruction} {i : Instruction} {h n : Nat}
    (whole : height? (before ++ i :: after) h = some n) :
    ∃ m, height? before h = some m ∧ i.operands ≤ m := by
  rw [height?_append] at whole
  obtain ⟨m, hm, hrest⟩ := Option.bind_eq_some_iff.mp whole
  exact ⟨m, hm, (height?_cons_eq_some_iff.mp hrest).1⟩

end Reckoner
