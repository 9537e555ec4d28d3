import Reckoner.Elementary.Exponential

/-! # Powers

The correctly rounded power `xʸ`, as `e ^ (y ln |x|)` with the sign decided by the parity of `y`.

* **`powMagnitude`** — the power of a positive magnitude other than one.
* **`isOddInteger`, `isInteger`** — the parity of an exponent, exact for all sizes.
* **`pow`** — with `x⁰ = 1ʸ = 1` even for NaN, signed zeros, infinities, and no power of a negative
  number to a fraction. The exponent one half is the square root, for a negative zero, which stays,
  and for the negative infinity, which has none, as well. -/

namespace Reckoner

/-- The rank of the power of two positive magnitudes of units, the exponent with its sign. The
logarithm is taken to as many more places as the exponent has binary digits before the point. -/
def powMagnitude (base : Nat) (negative : Bool) (exponent : Nat) : Nat :=
  let wide := exponent.log2 - 1074 + 8
  let logarithm (p : Nat) : Int :=
    let t := (lnRatio (p + wide) base unitsPerOne * exponent).tdiv (unitsPerOne * twoPow wide : Nat)
    if negative then -t else t
  let sketch := logarithm 64
  if ((800 * twoPow 64 : Nat) : Int) < sketch then topRank
  else if sketch < -((800 * twoPow 64 : Nat) : Int) then 0
  else settle fun p =>
    let (significand, k) := expParts p (logarithm p)
    (Enclosure.around significand p).shift k

/-- Whether a magnitude of units is a whole number. -/
def isInteger (u : Nat) : Bool := u % unitsPerOne = 0

/-- Whether a magnitude of units is an odd whole number. -/
def isOddInteger (u : Nat) : Bool := isInteger u && u / unitsPerOne % 2 = 1

namespace Binary64

/-- The power function. To the exponent one half it is the square root. -/
def pow : Binary64 → Binary64 → Binary64
  | .number s r h, .number t q _ =>
    let u := units r
    let v := units q
    let odd := q != topRank && isOddInteger v
    if q = 0 ∨ (u = unitsPerOne ∧ s = false) then 1
    else if 2 * v = unitsPerOne ∧ t = false then sqrt (.number s r h)
    else if q = topRank then
      if u = unitsPerOne then 1
      else if (u < unitsPerOne) = t then infinity false
      else zero false
    else if r = 0 then
      if t then infinity (s && odd) else zero (s && odd)
    else if r = topRank then
      if t then zero (s && odd) else infinity (s && odd)
    else if s ∧ ¬ isInteger v then undefined
    else if u = unitsPerOne then ofRatio odd unitsPerOne 1
    else ofRank (s && odd) (powMagnitude u t v)
  | .nan s, .number _ q _ => if q = 0 then 1 else .nan s
  | .number s r _, .nan t => if units r = unitsPerOne ∧ s = false then 1 else .nan t
  | .nan s, .nan _ => .nan s

end Binary64

end Reckoner
