import Reckoner.Elementary.Exponential

/-! # Circular functions

The correctly rounded trigonometric functions and their inverses, in radians.

* **`quarterTurns`** — an argument as a number of quarter turns and a remainder of at most an
  eighth of a turn, exact for arguments of any size.
* **`sin`, `cos`, `tan`** — undefined at the infinities.
* **`asin`, `acos`, `atan`, `atan2`** — the angles, with the signed-zero and infinity cases of
  `atan2`. -/

namespace Reckoner

/-- The quarter turns nearest to a magnitude of units and the remainder in fixed point. Pi is taken
to as many more places as the magnitude has binary digits before the point. -/
def quarterTurns (p u : Nat) : Nat × Int :=
  let q := p + (u.log2 - 1074) + 8
  let x := fixedOfUnits q u
  let pi := (piFixed q).toNat
  let n := (4 * x + pi) / (2 * pi)
  (n, (((2 * x : Nat) : Int) - (n * pi : Nat)).tdiv (twoPow (q - p + 1) : Nat))

/-- The sine and the cosine of a magnitude, in fixed point. -/
def sinCos (p u : Nat) : Int × Int :=
  let (n, r) := quarterTurns p u
  let sine := sinSeries p r
  let cosine := cosSeries p r
  match n % 4 with
  | 0 => (sine, cosine)
  | 1 => (cosine, -sine)
  | 2 => (-sine, -cosine)
  | _ => (-cosine, sine)

/-- The enclosure of a fixed-point magnitude. -/
def Enclosure.ofFixed (p : Nat) (z : Int) : Enclosure := .around z.natAbs p

namespace Binary64

/-- The sine. -/
def sin : Binary64 → Binary64
  | .nan s => .nan s
  | .number s r h =>
    if r = topRank then undefined
    else if nearlyIdentity (units r) then .number s r h
    else ofRank (s ^^ decide ((sinCos 192 (units r)).1 < 0)) <|
      settle fun p => .ofFixed p (sinCos p (units r)).1

/-- The cosine. -/
def cos : Binary64 → Binary64
  | .nan s => .nan s
  | .number _ r _ =>
    if r = topRank then undefined
    else ofRank (decide ((sinCos 192 (units r)).2 < 0)) <|
      settle fun p => .ofFixed p (sinCos p (units r)).2

/-- The tangent. -/
def tan : Binary64 → Binary64
  | .nan s => .nan s
  | .number s r h =>
    if r = topRank then undefined
    else if nearlyIdentity (units r) then .number s r h
    else
      let (sine, cosine) := sinCos 192 (units r)
      ofRank (s ^^ decide (sine < 0) ^^ decide (cosine < 0)) <| settle fun p =>
        let (a, b) := sinCos p (units r)
        (Enclosure.ofFixed p a).dividedBy (.ofFixed p b)

/-! ## Inverse functions -/

/-- The leg `√(1 - x²)` in fixed point, for a magnitude of at most one. -/
def leg (p u : Nat) : Nat :=
  rootFixed ((unitsPerOne * unitsPerOne - u * u) * twoPow (2 * p) / (unitsPerOne * unitsPerOne))

/-- The inverse sine of numbers between minus one and one. -/
def asin : Binary64 → Binary64
  | .nan s => .nan s
  | .number s r h =>
    if unitsPerOne < units r then undefined
    else oddFunction 0 (fun u => settle fun p => .around (angle p (fixedOfUnits p u) (leg p u)) p)
      (.number s r h)

/-- The inverse cosine of numbers between minus one and one. -/
def acos : Binary64 → Binary64
  | .nan s => .nan s
  | .number s r _ =>
    let u := units r
    if unitsPerOne < u then undefined
    else if u = unitsPerOne ∧ s = false then zero false
    else ofRank false <| settle fun p =>
      let acute := angle p (leg p u) (fixedOfUnits p u)
      .around (if s then (piFixed p).toNat - acute else acute) p

/-- The inverse tangent. -/
def atan (x : Binary64) : Binary64 :=
  oddFunction (settle fun p => (Enclosure.around (piFixed p).toNat p).shift (-1))
    (fun u => settle fun p => .around (angle p u unitsPerOne) p) x

/-- The multiple `k · π / 4` with a sign. -/
def eighthTurns (negative : Bool) (k : Nat) : Binary64 :=
  ofRank negative <| settle fun p => (Enclosure.around (k * (piFixed p).toNat) p).shift (-2)

/-- The angle of the point `(x, y)` for positive magnitudes of `u` and `v` units of `y` and `x`,
`v` counted to the left when `left` holds. The precision grows with the ratio, so that a small
angle is told from the ratio itself. -/
def pointAngle (u v : Nat) (left : Bool) : Nat :=
  settle fun p =>
    if left then .around ((piFixed p).toNat - angle p u v) p
    else
      let q := p + 3 * (v.log2 - u.log2)
      .around (angle q u v) q

/-- The **two-argument inverse tangent**: the angle of the point `(x, y)`, with the sign of `y`. -/
def atan2 : Binary64 → Binary64 → Binary64
  | .number s r h, .number t q _ =>
    if r = topRank then
      if q = topRank then eighthTurns s (if t then 3 else 1) else eighthTurns s 2
    else if q = topRank ∨ r = 0 then
      if t then eighthTurns s 4 else if r = 0 then .number s r h else zero s
    else if q = 0 then eighthTurns s 2
    else ofRank s (pointAngle (units r) (units q) t)
  | x, y => firstNaN x y

end Binary64

end Reckoner
