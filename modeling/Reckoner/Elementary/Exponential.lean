import Reckoner.Elementary.Series

/-! # Exponentials and logarithms

The correctly rounded exponential, logarithms, hyperbolic functions and their inverses.

* **`expParts`** — `eᵗ` as a fixed-point significand between one and two and a power of two.
* **`exp`, `log`, `log2`, `log10`** — with `exp (-∞) = 0`, `log 0 = -∞` and no logarithm of a
  negative number.
* **`sinh`, `cosh`, `tanh`, `asinh`, `acosh`, `atanh`** — the hyperbolic functions; an odd function
  of an argument below `2⁻²⁸` is nearest to the argument itself. -/

namespace Reckoner

/-- The exponential of the fixed-point number `t`: a significand `s` with `p` places and an exponent
`k` such that `eᵗ = s · 2ᵏ`. -/
def expParts (p : Nat) (t : Int) : Nat × Int :=
  let two := lnTwo p
  let k := t / two
  ((expSeries p (t - k * two)).toNat, k)

/-- A magnitude of units as a fixed-point number, rounded down. -/
def fixedOfUnits (p u : Nat) : Nat := u * twoPow p / unitsPerOne

/-- Magnitudes of at least `800`, whose exponentials lie outside the range of the numbers. -/
def beyondExponential (u : Nat) : Bool := 800 * unitsPerOne ≤ u

/-- Magnitudes below `2⁻²⁸`, for which `f x` differs from `x` by less than half the distance to a
neighbour when `f` is odd with slope one and no curvature at zero. -/
def nearlyIdentity (u : Nat) : Bool := u < twoPow (1074 - 28)

namespace Binary64

/-! ## Exponential and logarithm -/

/-- The exponential function. -/
def exp : Binary64 → Binary64
  | .nan s => .nan s
  | .number s r _ =>
    let u := units r
    if r = topRank ∨ beyondExponential u then (if s then zero false else infinity false)
    else ofRank false <| settle fun p =>
      let t : Int := fixedOfUnits p u
      let (significand, k) := expParts p (if s then -t else t)
      (Enclosure.around significand p).shift k

/-- The logarithm of the magnitude of `u` units, without its sign, divided by the logarithm that
`base` gives. -/
def logMagnitude (u : Nat) (base : Nat → Enclosure) : Nat :=
  settle fun p => (Enclosure.around (lnRatio p u unitsPerOne).natAbs p).dividedBy (base p)

/-- A logarithm: none of a negative number, `-∞` of zero, and zero of one. -/
def logTo (base : Nat → Enclosure) : Binary64 → Binary64
  | .nan s => .nan s
  | .number s r h =>
    if r = 0 then infinity true
    else if s then undefined
    else if r = topRank then .number s r h
    else if units r = unitsPerOne then zero false
    else ofRank (units r < unitsPerOne) (logMagnitude (units r) base)

/-- The natural logarithm. -/
def log : Binary64 → Binary64 := logTo fun p => ⟨twoPow p, twoPow p, twoPow p⟩

/-- The binary logarithm. -/
def log2 : Binary64 → Binary64 := logTo fun p => .around (lnTwo p).toNat p

/-- The decimal logarithm. -/
def log10 : Binary64 → Binary64 := logTo fun p => .around (lnRatio p 10 1).toNat p

/-! ## Hyperbolic functions -/

/-- An odd function of the magnitude: the sign passes through, tiny magnitudes and zero stay, and
infinity goes to `atInfinity`. -/
def oddFunction (atInfinity : Nat) (f : Nat → Nat) : Binary64 → Binary64
  | .nan s => .nan s
  | .number s r h =>
    if r = topRank then ofRank s atInfinity
    else if nearlyIdentity (units r) then .number s r h
    else ofRank s (f (units r))

/-- The exponential of a magnitude and its inverse over the same power of two: `(a, b, k)` with
`eˣ = a · 2ᵏ` and `e⁻ˣ = b · 2ᵏ`. -/
def expPair (p u : Nat) : Nat × Nat × Int :=
  let (a, k) := expParts p (fixedOfUnits p u)
  (a, twoPow (2 * p) / a / twoPow (2 * k).toNat, k)

/-- The hyperbolic sine. -/
def sinh : Binary64 → Binary64 := oddFunction topRank fun u =>
  if beyondExponential u then topRank
  else settle fun p =>
    let (a, b, k) := expPair p u
    (Enclosure.around (a - b) p).shift (k - 1)

/-- The hyperbolic cosine. -/
def cosh : Binary64 → Binary64
  | .nan s => .nan s
  | .number _ r _ =>
    if r = topRank ∨ beyondExponential (units r) then infinity false
    else ofRank false <| settle fun p =>
      let (a, b, k) := expPair p (units r)
      (Enclosure.around (a + b) p).shift (k - 1)

/-- The rank of one. -/
def rankOfOne : Nat := nearestRank unitsPerOne 1

/-- The hyperbolic tangent. -/
def tanh : Binary64 → Binary64 := oddFunction rankOfOne fun u =>
  if beyondExponential u then rankOfOne
  else settle fun p =>
    let (a, b, _) := expPair p u
    (Enclosure.around (a - b) p).dividedBy (.around (a + b) p)

/-- The fixed-point square root of `n / 2²ᵖ`. -/
def rootFixed (n : Nat) : Nat := rootFloor 2 n (n.log2 / 2 + 1)

/-- The inverse hyperbolic sine, `ln (x + √(x² + 1))`. -/
def asinh : Binary64 → Binary64 := oddFunction topRank fun u =>
  settle fun p =>
    let x := fixedOfUnits p u
    .around (lnRatio p (x + rootFixed (x * x + twoPow (2 * p))) (twoPow p)).toNat p

/-- The inverse hyperbolic cosine, `ln (x + √(x² - 1))`, of numbers from one on. -/
def acosh : Binary64 → Binary64
  | .nan s => .nan s
  | .number s r h =>
    if s ∨ units r < unitsPerOne then undefined
    else if r = topRank then .number s r h
    else if units r = unitsPerOne then zero false
    else ofRank false <| settle fun p =>
      let x := fixedOfUnits p (units r)
      .around (lnRatio p (x + rootFixed (x * x - twoPow (2 * p))) (twoPow p)).toNat p

/-- The inverse hyperbolic tangent, `½ ln ((1 + x) / (1 - x))`, of numbers between minus one and
one. -/
def atanh : Binary64 → Binary64
  | .nan s => .nan s
  | .number s r h =>
    if unitsPerOne < units r then undefined
    else if units r = unitsPerOne then infinity s
    else oddFunction 0 (fun u => settle fun p =>
      (Enclosure.around (lnRatio p (unitsPerOne + u) (unitsPerOne - u)).toNat p).shift (-1))
      (.number s r h)

end Binary64

end Reckoner
