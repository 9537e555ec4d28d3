import Reckoner.Binary64.Text
import Reckoner.Excess
import Reckoner.Symbol.Function
import Reckoner.Symbol.Operator

/-! # Postfix programs

An expression in the order in which it is computed: operands before the operation on them.

* **`Span`** — a stretch of the expression text.
* **`Instruction`** — one step of a program, with the place in the text it comes from.
* **`Program`** — a sequence of instructions and the text it was made from.
* **`Program.text`** — the texts of the instructions, separated by spaces.
* **`Program.written`, `Program.listed`** — the text of a program and those of its instructions, if they
  can be written. -/

namespace Reckoner

/-- A stretch of text: the position of its first character and its length. -/
structure Span where
  /-- The position of the first character. -/
  offset : Int
  /-- The number of characters. -/
  length : Int
  deriving DecidableEq, Repr

/-- One **step of a program**. -/
inductive Instruction where
  /-- Pushes a number. -/
  | number (value : Binary64) (span : Span)
  /-- Negates the last operand. -/
  | negate (offset : Int)
  /-- Combines the last two operands. -/
  | operation (operator : Operator) (offset : Int)
  /-- Applies a function to the last `arity` operands. -/
  | call (function : Function) (arity : Nat) (span : Span)
  /-- Takes the factorial of the last operand. -/
  | factorial (offset : Int)
  /-- Stands for a step that cannot be run, in a program built by hand. -/
  | unknown (shown : String)
  deriving DecidableEq

namespace Instruction

/-- The text of an instruction, with every integer written out. -/
def text : Instruction → String
  | .number value _ => value.shortest
  | .negate _ => "neg"
  | .operation op _ => op.symbol
  | .call f arity _ => f.name ++ "/" ++ toString arity
  | .factorial _ => "!"
  | .unknown shown => shown

/-- Whether the text of an instruction cannot be written: it is a call, and its arity has too many
digits. -/
def isOverlong : Instruction → Bool
  | .call _ arity _ => Reckoner.isOverlong arity
  | _ => false

/-- The text of an instruction, if it can be written. -/
def written (i : Instruction) : Except Excess String :=
  if i.isOverlong then .error .digitsWritten else .ok i.text

/-- The place that an instruction comes from; a single character unless a span is recorded. -/
def span : Instruction → Span
  | .number _ span => span
  | .negate offset => ⟨offset, 1⟩
  | .operation _ offset => ⟨offset, 1⟩
  | .call _ _ span => span
  | .factorial offset => ⟨offset, 1⟩
  | .unknown _ => ⟨0, 0⟩

end Instruction

/-- A **postfix program**. -/
structure Program where
  /-- The expression that the program was made from. -/
  source : String
  /-- The steps, in order. -/
  instructions : List Instruction
  deriving DecidableEq

namespace Program

/-- The texts of the instructions, separated by spaces. -/
def text (p : Program) : String :=
  " ".intercalate (p.instructions.map Instruction.text)

/-- The texts of the instructions, if they can be written. -/
def listed (p : Program) : Except Excess (List String) := p.instructions.mapM Instruction.written

/-- The texts of the instructions, separated by spaces, if they can be written. -/
def written (p : Program) : Except Excess String := p.listed.map (" ".intercalate ·)

end Program

end Reckoner
