/-! # Double-precision numbers as signed ranks

The nonnegative binary64 numbers, infinity included, form one finite increasing chain
`0 < 5e-324 < … < 1.797…e308 < ∞`. This file represents a number by its sign and its position in
that chain, so that order, neighbours and overflow are facts about natural numbers.

* **`Binary64`** — a sign with a **rank** at most `topRank`, the rank of infinity, or a NaN, which has
  a sign as well.
* **`undefined`, `firstNaN`** — which NaN an operation returns.
* **`units`** — the exact magnitude of a rank, counted in the least positive number `2⁻¹⁰⁷⁴`;
  every finite magnitude is a whole number of units.
* **`divNearestEven n d`** — the quotient `n / d` rounded to a whole number, a half going to the
  even neighbour.
* **`nearestRank n d`** — the rank nearest to `n / d` units, a half going to the even rank; this is
  the one rounding step of every operation.
* **`ofRank`, `ofRatio`** — numbers from a rank or from an exact ratio of units; what lies beyond
  the largest finite number becomes infinity. -/

namespace Reckoner

/-- The power of two with the given exponent. -/
def twoPow (n : Nat) : Nat := Nat.pow 2 n

/-- The rank of infinity: one more than the rank of the largest finite magnitude. -/
def topRank : Nat := 0x7ff0000000000000

/-- A **binary64 number**: a NaN, or a sign and a rank in the chain of magnitudes. The two zeros
have rank `0`, the two infinities rank `topRank`. -/
inductive Binary64 where
  /-- What is no number: all quiet NaNs with this sign, whose payloads are left out. The sign cannot be
  seen, but `copySign` passes it on. -/
  | nan (negative : Bool)
  /-- A signed magnitude; `negative` holds of `-0.0` too. -/
  | number (negative : Bool) (rank : Nat) (rank_le : rank ≤ topRank)
  deriving DecidableEq

/-- The number of units in one: `1 = 2¹⁰⁷⁴ · 2⁻¹⁰⁷⁴`. -/
def unitsPerOne : Nat := twoPow 1074

/-- The exact magnitude of a rank below `topRank`, in units of `2⁻¹⁰⁷⁴`. Ranks below `2⁵³` are
their own magnitude; above, each block of `2⁵²` ranks doubles the step between neighbours. -/
def units (rank : Nat) : Nat :=
  if rank < twoPow 52 then rank
  else (twoPow 52 + rank % twoPow 52) * twoPow (rank / twoPow 52 - 1)

/-- The quotient of two natural numbers rounded to the nearest whole number, a half going to the
even neighbour. -/
def divNearestEven (n d : Nat) : Nat :=
  let q := n / d
  let r := n % d
  if 2 * r < d then q
  else if d < 2 * r then q + 1
  else q + q % 2

/-- The rank whose magnitude is nearest to `n / d` units, a half going to the even rank. Below
`2⁵³` units the step is one unit; a quotient with `53 + s` bits is rounded to a multiple of `2ˢ`
units. The result may exceed `topRank`. -/
def nearestRank (n d : Nat) : Nat :=
  let s := (n / d).log2 - 52
  s * twoPow 52 + divNearestEven n (d * twoPow s)

namespace Binary64

/-- The number with the given sign and rank; ranks beyond `topRank` mean infinity. -/
def ofRank (negative : Bool) (rank : Nat) : Binary64 :=
  .number negative (min rank topRank) (Nat.min_le_right rank topRank)

/-- The number nearest to `±n / d` units. -/
def ofRatio (negative : Bool) (n d : Nat) : Binary64 := ofRank negative (nearestRank n d)

/-- The infinity of the given sign. -/
def infinity (negative : Bool) : Binary64 := .number negative topRank (Nat.le_refl topRank)

/-- The zero of the given sign. -/
def zero (negative : Bool) : Binary64 := .number negative 0 (Nat.zero_le topRank)

/-- The number nearest to an integer. -/
def ofInt (z : Int) : Binary64 := ofRatio (decide (z < 0)) (z.natAbs * unitsPerOne) 1

/-- The number nearest to a natural number. -/
def ofNat (n : Nat) : Binary64 := ofRatio false (n * unitsPerOne) 1

instance (n : Nat) : OfNat Binary64 n := ⟨ofNat n⟩

instance : Inhabited Binary64 := ⟨zero false⟩

/-! ## Classification -/

/-- Whether the number is a NaN. -/
def isNaN : Binary64 → Bool
  | .nan _ => true
  | .number .. => false

/-- Whether the number is an infinity. -/
def isInfinite : Binary64 → Bool
  | .nan _ => false
  | .number _ r _ => r == topRank

/-- Whether the number is neither an infinity nor a NaN. -/
def isFinite : Binary64 → Bool
  | .nan _ => false
  | .number _ r _ => r < topRank

/-- Whether the number is one of the two zeros. -/
def isZero : Binary64 → Bool
  | .nan _ => false
  | .number _ r _ => r == 0

/-- The sign bit. -/
def isNegative : Binary64 → Bool
  | .nan s => s
  | .number s _ _ => s

/-- A NaN is one. -/
@[simp] theorem isNaN_nan (s : Bool) : isNaN (nan s) = true := rfl

/-- A signed magnitude is no NaN. -/
@[simp] theorem isNaN_number (s : Bool) (r : Nat) (h : r ≤ topRank) :
    isNaN (number s r h) = false := rfl

/-- The sign bit of a signed magnitude is its sign. -/
@[simp] theorem isNegative_number (s : Bool) (r : Nat) (h : r ≤ topRank) :
    isNegative (number s r h) = s := rfl

/-- Ranks up to `topRank` are kept. -/
@[simp] theorem ofRank_rank (s : Bool) (r : Nat) (h : r ≤ topRank) :
    ofRank s r = number s r h := by
  simp [ofRank, Nat.min_eq_left h]

/-! ## The NaN of an operation -/

/-- The result of an undefined operation on numbers: the negative NaN. -/
def undefined : Binary64 := .nan true

/-- The result of an operation on two operands of which at least one is a NaN: the first NaN. -/
def firstNaN (x y : Binary64) : Binary64 := if x.isNaN then x else y

/-! ## Exact values of finite numbers -/

/-- The exact value of a finite number in units of `2⁻¹⁰⁷⁴`; NaN and the infinities have none. -/
def units? : Binary64 → Option Int
  | .nan _ => none
  | .number s r _ =>
    if r < topRank then some (if s then -(units r : Int) else units r) else none

/-- The integer part of a finite number: its value truncated toward zero. -/
def truncate? (x : Binary64) : Option Int :=
  x.units?.map fun u => u.tdiv unitsPerOne

end Binary64

end Reckoner
