import Reckoner.Binary64.Basic

/-! # Arithmetic on double-precision numbers

Every operation computes its exact result on whole numbers of units and rounds once, to nearest
with ties to even. Nothing fails: what has no value is a NaN, and what is too large is infinity.

* **`add`, `sub`, `mul`, `div`** — the four operations, with signed zeros and infinities.
* **`fmod`, `ieeeRemainder`** — the remainders for the quotient truncated toward zero and rounded
  to the nearest integer; both are exact.
* **`floor`, `ceiling`, `truncate`, `roundHalfEven`** — integral values; a zero result keeps the
  sign of the argument.
* **`nextUp`, `nextDown`, `abs`, `neg`, `copySign`** — neighbours and sign operations, on ranks.
* **`sqrt`, `cbrt`** — roots, by the integer root `rootFloor` and one sticky bit. -/

namespace Reckoner

namespace Binary64

/-! ## Signs and order -/

/-- The number with its sign reversed. -/
def neg : Binary64 → Binary64
  | .nan s => .nan (!s)
  | .number s r h => .number (!s) r h

instance : Neg Binary64 := ⟨neg⟩

/-- The magnitude with a positive sign. -/
def abs : Binary64 → Binary64
  | .nan _ => .nan false
  | .number _ r h => .number false r h

/-- The magnitude of the first number with the sign of the second. -/
def copySign : Binary64 → Binary64 → Binary64
  | .nan _, y => .nan y.isNegative
  | .number _ r h, y => .number y.isNegative r h

/-- The sign of a NaN changes. -/
@[simp] theorem neg_nan (s : Bool) : neg (nan s) = nan (!s) := rfl

/-- The sign of a magnitude changes. -/
@[simp] theorem neg_number (s : Bool) (r : Nat) (h : r ≤ topRank) :
    neg (number s r h) = number (!s) r h := rfl

/-- Two changes of the sign are none. -/
@[simp] theorem neg_neg (x : Binary64) : neg (neg x) = x := by
  cases x <;> simp

/-- The position on the number line: the rank with its sign, so that the two zeros coincide. -/
def place : Binary64 → Option Int
  | .nan _ => none
  | .number s r _ => some (if s then -(r : Int) else r)

/-- Strict order of values; a NaN is below and above nothing. -/
def lt (x y : Binary64) : Bool :=
  match x.place, y.place with
  | some a, some b => a < b
  | _, _ => false

/-- Equality of values: the zeros are equal, a NaN equals nothing. -/
def eqv (x y : Binary64) : Bool :=
  match x.place, y.place with
  | some a, some b => a == b
  | _, _ => false

/-! ## Neighbours -/

/-- The least number above the argument; infinity and NaN stay. -/
def nextUp : Binary64 → Binary64
  | .nan s => .nan s
  | .number false r _ => ofRank false (r + 1)
  | .number true r _ => if r = 0 then ofRank false 1 else ofRank true (r - 1)

/-- The greatest number below the argument; negative infinity and NaN stay. -/
def nextDown (x : Binary64) : Binary64 := neg (nextUp (neg x))

/-! ## The four operations -/

/-- The exact sum of two signed numbers of units, rounded. A zero sum is negative only when both
terms are. -/
def addUnits (s : Bool) (u : Nat) (t : Bool) (v : Nat) : Binary64 :=
  if s = t then ofRatio s (u + v) 1
  else if u = v then zero false
  else if v < u then ofRatio s (u - v) 1
  else ofRatio t (v - u) 1

/-- The sum. Infinities of opposite signs have none. -/
def add : Binary64 → Binary64 → Binary64
  | .number s r _, .number t q _ =>
    if r = topRank then
      if q = topRank ∧ s ≠ t then undefined else infinity s
    else if q = topRank then infinity t
    else addUnits s (units r) t (units q)
  | x, y => firstNaN x y

/-- The difference: the sum with the second number negated. -/
def sub (x y : Binary64) : Binary64 :=
  if y.isNaN then firstNaN x y else add x (neg y)

/-- The product. Zero times infinity has none. -/
def mul : Binary64 → Binary64 → Binary64
  | .number s r _, .number t q _ =>
    if r = topRank then
      if q = 0 then undefined else infinity (s ^^ t)
    else if q = topRank then
      if r = 0 then undefined else infinity (s ^^ t)
    else ofRatio (s ^^ t) (units r * units q) unitsPerOne
  | x, y => firstNaN x y

/-- The quotient. Zero over zero and infinity over infinity have none; any other number over zero
is an infinity. -/
def div : Binary64 → Binary64 → Binary64
  | .number s r _, .number t q _ =>
    if r = topRank then
      if q = topRank then undefined else infinity (s ^^ t)
    else if q = topRank then zero (s ^^ t)
    else if q = 0 then
      if r = 0 then undefined else infinity (s ^^ t)
    else ofRatio (s ^^ t) (units r * unitsPerOne) (units q)
  | x, y => firstNaN x y

instance : Add Binary64 := ⟨add⟩

instance : Sub Binary64 := ⟨sub⟩

instance : Mul Binary64 := ⟨mul⟩

instance : Div Binary64 := ⟨div⟩

/-! ## Remainders -/

/-- The remainder of the quotient truncated toward zero; it has the sign of the first number. -/
def fmod : Binary64 → Binary64 → Binary64
  | .number s r h, .number _ q _ =>
    if r = topRank ∨ q = 0 then undefined
    else if q = topRank then .number s r h
    else ofRatio s (units r % units q) 1
  | x, y => firstNaN x y

/-- The remainder of the quotient rounded to the nearest integer, ties to even; a zero remainder
has the sign of the first number. Where it has no value it is the positive NaN. -/
def ieeeRemainder : Binary64 → Binary64 → Binary64
  | .number s r h, .number _ q _ =>
    if r = topRank ∨ q = 0 then .nan false
    else if q = topRank then .number s r h
    else
      let rest := units r % units q
      let odd := units r / units q % 2
      if units q < 2 * rest + odd then ofRatio (!s) (units q - rest) 1
      else ofRatio s rest 1
  | _, _ => .nan false

/-! ## Integral values -/

/-- Replaces the magnitude of a finite number by a whole number that is computed from its sign and
its units; NaN and the infinities stay. -/
def mapIntegral (f : Bool → Nat → Nat) : Binary64 → Binary64
  | .nan s => .nan s
  | .number s r h =>
    if r = topRank then .number s r h
    else ofRatio s (f s (units r) * unitsPerOne) 1

/-- The value truncated toward zero. -/
def truncate : Binary64 → Binary64 := mapIntegral fun _ u => u / unitsPerOne

/-- The greatest integral value at most the argument. -/
def floor : Binary64 → Binary64 :=
  mapIntegral fun s u => if s then (u + (unitsPerOne - 1)) / unitsPerOne else u / unitsPerOne

/-- The least integral value at least the argument. -/
def ceiling : Binary64 → Binary64 :=
  mapIntegral fun s u => if s then u / unitsPerOne else (u + (unitsPerOne - 1)) / unitsPerOne

/-- The nearest integral value, a half going to the even neighbour. -/
def roundHalfEven : Binary64 → Binary64 := mapIntegral fun _ u => divNearestEven u unitsPerOne

end Binary64

/-! ## Roots -/

/-- The greatest `r` below `2 ^ bits` with `rᵏ ≤ n`, found bit by bit from the top. -/
def rootFloor (k n bits : Nat) : Nat :=
  (List.range bits).foldr
    (fun i r => if Nat.pow (r + twoPow i) k ≤ n then r + twoPow i else r) 0

/-- Twice the `k`-th root of `n`, rounded to an odd number unless it is exact: enough to round the
root itself correctly to any coarser grid of whole numbers. -/
def rootSticky (k n : Nat) : Nat :=
  let r := rootFloor k n (n.log2 / k + 1)
  if Nat.pow r k = n then 2 * r else 2 * r + 1

namespace Binary64

/-- The square root; negative numbers have none, and `-0.0` is its own. -/
def sqrt : Binary64 → Binary64
  | .nan s => .nan s
  | .number s r h =>
    if r = 0 then .number s r h
    else if s then undefined
    else if r = topRank then .number s r h
    else ofRatio false (rootSticky 2 (units r * unitsPerOne)) 2

/-- The cube root, of either sign. -/
def cbrt : Binary64 → Binary64
  | .nan s => .nan s
  | .number s r h =>
    if r = 0 ∨ r = topRank then .number s r h
    else ofRatio s (rootSticky 3 (units r * (unitsPerOne * unitsPerOne))) 2

end Binary64

end Reckoner
