import Reckoner.Symbol.Function
import Reckoner.Token

/-! # Binary operators

The sixteen binary operators: their symbols, how tightly they bind, and what they compute.

* **`Operator`** — the operators. A compound one such as `*-` applies its first operation to the
  right operand with its second sign.
* **`Operator.precedence`** — from the shifts, which bind loosest, to the power.
* **`shiftWords`** — shifts on signed 32-bit words.
* **`percentage`** — `x % y`, which is `y` percent of `x`.
* **`Operator.apply`** — the value of an operator on two numbers.
* **`TokenKind.operator?`** — the operator that a token stands for. -/

namespace Reckoner

/-- A binary operator. -/
inductive Operator where
  | shiftLeft
  | shiftRight
  | plus
  | minus
  | plusMinus
  | minusPlus
  | times
  | divide
  | percent
  | timesMinus
  | timesPlus
  | divideMinus
  | dividePlus
  | percentMinus
  | percentPlus
  | power
  deriving DecidableEq, Repr

/-- The number that a signed 32-bit word stands for. -/
def Binary64.ofWord (w : BitVec 32) : Binary64 := .ofInt w.toInt

/-- A shift of 32-bit words as an operation on numbers: both operands are truncated to integers and
wrapped to words, and the count is taken modulo 32. What is not finite has no shift. -/
def shiftWords (shift : BitVec 32 → Nat → BitVec 32) (x y : Binary64) : Binary64 :=
  match x.truncate?, y.truncate? with
  | some l, some r => .ofWord (shift (BitVec.ofInt 32 l) ((BitVec.ofInt 32 r).toNat % 32))
  | _, _ => .nan false

/-- So many percent of a number: `x · (y / 100)`. -/
def percentage (x y : Binary64) : Binary64 := x * (y / 100)

namespace Operator

/-- All operators. -/
def all : List Operator :=
  [.shiftLeft, .shiftRight, .plus, .minus, .plusMinus, .minusPlus, .times, .divide, .percent,
    .timesMinus, .timesPlus, .divideMinus, .dividePlus, .percentMinus, .percentPlus, .power]

/-- The text of an operator. -/
def symbol : Operator → String
  | .shiftLeft => "<<"
  | .shiftRight => ">>"
  | .plus => "+"
  | .minus => "-"
  | .plusMinus => "+-"
  | .minusPlus => "-+"
  | .times => "*"
  | .divide => "/"
  | .percent => "%"
  | .timesMinus => "*-"
  | .timesPlus => "*+"
  | .divideMinus => "/-"
  | .dividePlus => "/+"
  | .percentMinus => "%-"
  | .percentPlus => "%+"
  | .power => "^"

/-- How tightly an operator binds. -/
def precedence : Operator → Nat
  | .shiftLeft => 0
  | .shiftRight => 0
  | .plus => 1
  | .minus => 1
  | .plusMinus => 1
  | .minusPlus => 1
  | .times => 2
  | .divide => 2
  | .percent => 2
  | .timesMinus => 2
  | .timesPlus => 2
  | .divideMinus => 2
  | .dividePlus => 2
  | .percentMinus => 2
  | .percentPlus => 2
  | .power => 3

/-- The power binds tightest. -/
theorem precedence_le (op : Operator) : op.precedence ≤ 3 := by
  cases op <;> decide

/-- The **value of an operator** on its operands. -/
def apply [Numerics] : Operator → Binary64 → Binary64 → Binary64
  | .shiftLeft, x, y => shiftWords (fun w n => w <<< n) x y
  | .shiftRight, x, y => shiftWords (fun w n => w.sshiftRight n) x y
  | .plus, x, y => x + y
  | .minus, x, y => x - y
  | .plusMinus, x, y => x + -y
  | .minusPlus, x, y => x - Numerics.positive y
  | .times, x, y => x * y
  | .divide, x, y => x / y
  | .percent, x, y => percentage x y
  | .timesMinus, x, y => x * -y
  | .timesPlus, x, y => x * Numerics.positive y
  | .divideMinus, x, y => x / -y
  | .dividePlus, x, y => x / Numerics.positive y
  | .percentMinus, x, y => percentage x (-y)
  | .percentPlus, x, y => percentage x (Numerics.positive y)
  | .power, x, y => Numerics.power x y

/-- The kind of the token that stands for an operator. -/
def tokenKind : Operator → TokenKind
  | .shiftLeft => .shiftLeft
  | .shiftRight => .shiftRight
  | .plus => .plus
  | .minus => .minus
  | .plusMinus => .plusMinus
  | .minusPlus => .minusPlus
  | .times => .times
  | .divide => .divide
  | .percent => .percent
  | .timesMinus => .timesMinus
  | .timesPlus => .timesPlus
  | .divideMinus => .divideMinus
  | .dividePlus => .dividePlus
  | .percentMinus => .percentMinus
  | .percentPlus => .percentPlus
  | .power => .power

end Operator

/-- The operator that tokens of a kind stand for. -/
def TokenKind.operator? (kind : TokenKind) : Option Operator :=
  Operator.all.find? fun op => op.tokenKind = kind

/-- The token of an operator stands for it. -/
@[simp] theorem Operator.operator?_tokenKind (op : Operator) : op.tokenKind.operator? = some op := by
  cases op <;> rfl

/-- No other token does. -/
@[simp] theorem TokenKind.operator?_eq_some_iff {kind : TokenKind} {op : Operator} :
    kind.operator? = some op ↔ op.tokenKind = kind := by
  constructor
  · intro h
    have := List.find?_some h
    simpa using this
  · rintro rfl
    simp

end Reckoner
