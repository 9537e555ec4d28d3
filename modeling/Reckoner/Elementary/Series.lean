import Reckoner.Elementary.Enclosure

/-! # Power series in fixed point

Fixed-point numbers with `p` binary places are integers that stand for themselves over `2ᵖ`. The
series here add terms until they vanish at that precision; each call makes at most a few hundred
roundings of one unit in the last place.

* **`oddSeries`** — `t + q·t/3 + q²·t/5 + …`, the inverse tangents for `q = ∓t²`.
* **`expSeries`, `sinSeries`, `cosSeries`** — the Taylor series at an argument of at most one.
* **`lnTwo`, `piFixed`** — the constants, from inverse tangents at small rationals.
* **`lnRatio`** — the logarithm of a positive rational.
* **`angle`** — the angle in the first quadrant of the point `(x, y)`. -/

namespace Reckoner

/-- The product of two fixed-point numbers, truncated toward zero. -/
def mulFixed (p : Nat) (a b : Int) : Int := (a * b).tdiv (twoPow p : Nat)

/-- The sum of `power / k` over odd `k`, where each power is the one before times `square`. -/
def oddSeries (p : Nat) (square : Int) : (fuel : Nat) → (k : Nat) → (power : Int) → Int
  | 0, _, _ => 0
  | fuel + 1, k, power =>
    if power = 0 then 0
    else power.tdiv k + oddSeries p square fuel (k + 2) (mulFixed p power square)

/-- The inverse hyperbolic tangent of `t`, for `|t|` at most one half. -/
def artanhFixed (p : Nat) (t : Int) : Int := oddSeries p (mulFixed p t t) p 1 t

/-- The inverse tangent of `t`, for `|t|` at most one half. -/
def arctanFixed (p : Nat) (t : Int) : Int := oddSeries p (-mulFixed p t t) p 1 t

/-- The sum of the terms of a Taylor series: each term is the one before times `factor` and divided
by `k (k + 1)` or, when `step` is one, by `k`. -/
def taylorSeries (p : Nat) (factor : Int) (step : Nat) : (fuel : Nat) → (k : Nat) → Int → Int
  | 0, _, _ => 0
  | fuel + 1, k, term =>
    if term = 0 then 0
    else
      let divisor := if step = 1 then k else k * (k + 1)
      term + taylorSeries p factor step fuel (k + step) ((mulFixed p term factor).tdiv divisor)

/-- The exponential of `r`, for `0 ≤ r ≤ 1`. -/
def expSeries (p : Nat) (r : Int) : Int := taylorSeries p r 1 (p + 2) 1 (twoPow p : Nat)

/-- The sine of `r`, for `|r| ≤ 1`. -/
def sinSeries (p : Nat) (r : Int) : Int := taylorSeries p (-mulFixed p r r) 2 (p + 2) 2 r

/-- The cosine of `r`, for `|r| ≤ 1`. -/
def cosSeries (p : Nat) (r : Int) : Int := taylorSeries p (-mulFixed p r r) 2 (p + 2) 1 (twoPow p : Nat)

/-! ## Constants -/

/-- The logarithm of two, as `2 artanh (1/3)`. -/
def lnTwo (p : Nat) : Int := 2 * artanhFixed p ((twoPow p / 3 : Nat) : Int)

/-- The circle constant, as `16 arctan (1/5) - 4 arctan (1/239)`. -/
def piFixed (p : Nat) : Int :=
  16 * arctanFixed p ((twoPow p / 5 : Nat) : Int) - 4 * arctanFixed p ((twoPow p / 239 : Nat) : Int)

/-! ## Logarithms -/

/-- The binary exponent `l` and the fraction `n / d · 2⁻ˡ`, which lies between `1/√2` and `√2`, for
a positive rational `n / d`. -/
def balanced (n d : Nat) : Int × Nat × Nat :=
  let l : Int := n.log2 - d.log2
  let n' := n * twoPow (-l).toNat
  let d' := d * twoPow l.toNat
  if 2 * (n' * n') < d' * d' then (l - 1, 2 * n', d')
  else if 2 * (d' * d') < n' * n' then (l + 1, n', 2 * d')
  else (l, n', d')

/-- The logarithm of a positive rational: `l ln 2 + 2 artanh ((m - 1) / (m + 1))` for the balanced
form `2ˡ · m`. -/
def lnRatio (p n d : Nat) : Int :=
  let (l, a, b) := balanced n d
  let t := (((a : Int) - b) * (twoPow p : Nat)).tdiv (a + b : Nat)
  l * lnTwo p + 2 * artanhFixed p t

/-! ## Angles -/

/-- The tangent of half the angle whose tangent is `t`: `t / (1 + √(1 + t²))`. -/
def halfTangent (p t : Nat) : Nat :=
  let square := twoPow (2 * p) + t * t
  t * twoPow p / (twoPow p + rootFloor 2 square (square.log2 / 2 + 1))

/-- The inverse tangent of a ratio `0 ≤ n / d ≤ 1`. Ratios above one eighth are halved as angles
three times first. -/
def arctanRatio (p n d : Nat) : Nat :=
  let t := n * twoPow p / d
  if 8 * n < d then (arctanFixed p t).toNat
  else 8 * (arctanFixed p (halfTangent p (halfTangent p (halfTangent p t)))).toNat

/-- The angle between the positive first axis and the point `(x, y)`, for `x` and `y` nonnegative
and not both zero. -/
def angle (p y x : Nat) : Nat :=
  if y ≤ x then arctanRatio p y x else (piFixed p).toNat / 2 - arctanRatio p x y

end Reckoner
