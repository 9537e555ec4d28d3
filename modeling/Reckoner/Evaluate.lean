import Reckoner.Postfix.Assembler
import Reckoner.Postfix.Machine

/-! # Evaluating expressions

From the text of an expression to its value.

* **`Limits`** — how long an expression may be and how deeply its brackets may nest.
* **`parse`** — the program of an expression within a limit on its brackets.
* **`compile`** — the program of an expression within limits.
* **`evaluate`** — the value of an expression within limits.
* **`Outcome`** — the value or the fault of an expression, as a value of its own. -/

namespace Reckoner

/-- How large an expression may be. -/
structure Limits where
  /-- How many brackets may be open at once. -/
  maxDepth : Int := 256
  /-- How many characters an expression may have. -/
  maxLength : Int := 10000
  deriving DecidableEq, Repr

/-- Refuses an expression with too many characters; the surplus is at fault. -/
def limitLength (source : Option String) (maxLength : Int) : Except Fault Unit :=
  match source with
  | none => .ok ()
  | some s =>
    if maxLength < s.length then
      .error ⟨.inputTooLong s.length maxLength, s, maxLength, s.length - maxLength⟩
    else .ok ()

/-- The **program of an expression** with a limit on how deeply its brackets nest. -/
def parse (source : Option String) (maxDepth : Int) : Except Failure Program :=
  (assemble source maxDepth).mapError .ofFault

/-- The **program of an expression** within limits. -/
def compile (limits : Limits) (source : Option String) : Except Failure Program :=
  ((limitLength source limits.maxLength).mapError .ofFault).bind fun _ =>
    parse source limits.maxDepth

/-- The **value of an expression** within limits. -/
def evaluate [Numerics] (limits : Limits) (source : Option String) : Except Failure Binary64 :=
  (compile limits source).bind Program.run

/-- The result of an evaluation: the expression and its value or its fault. -/
structure Outcome where
  /-- The expression that was evaluated. -/
  source : Option String
  /-- Its value, or why it has none. -/
  result : Except Fault Binary64

/-- The outcome of evaluating an expression. There is none when the message of a fault cannot be
written, nor when the run asks for an element of no arguments, which no compiled program does. -/
def outcome? [Numerics] (limits : Limits) (source : Option String) : Option Outcome :=
  match evaluate limits source with
  | .ok value => some ⟨source, .ok value⟩
  | .error (.fault f) => some ⟨source, .error f⟩
  | .error (.excess _) => none
  | .error .noElement => none

end Reckoner
