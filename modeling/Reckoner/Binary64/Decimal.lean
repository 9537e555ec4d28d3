import Reckoner.Binary64.Arithmetic
import Reckoner.Text.Blank
import Reckoner.Text.DecimalDigit

/-! # Decimal numerals and double-precision numbers

The two directions between a decimal `c · 10ᵏ` and a binary64 number, both exact until one final
rounding.

* **`ofDecimal`** — the number nearest to a decimal.
* **`scanNumeral`, `ofNumeral`, `read?`** — reading the numerals `12`, `1.5`, `.5`, `2.`, `2e-13`,
  and for `read?` also a sign, the words for infinity and NaN, digits of any script and underscores
  between them.
* **`decimalExponent`** — the exponent of the leading decimal digit of a magnitude.
* **`nearestDigits`** — a magnitude rounded to a given number of significant digits.
* **`shortestDigits`** — the fewest significant digits that read back as the same number, and of
  those the decimal nearest to the exact value. -/

namespace Reckoner

/-- The value of a string of decimal digits. -/
def digitsValue (cs : List Char) : Nat := cs.foldl (fun n c => 10 * n + (c.toNat - '0'.toNat)) 0

/-- The power of ten with the given exponent. -/
def tenPow (n : Nat) : Nat := Nat.pow 10 n

/-- A decimal `coefficient · 10 ^ exponent`. -/
structure Decimal where
  /-- The digits, as a natural number. -/
  coefficient : Nat
  /-- The power of ten that the coefficient is scaled by. -/
  exponent : Int
  deriving DecidableEq, Repr

namespace Decimal

/-- The decimal as a fraction of units of `2⁻¹⁰⁷⁴`: numerator and denominator. -/
def unitsRatio (d : Decimal) : Nat × Nat :=
  if 0 ≤ d.exponent then (d.coefficient * tenPow d.exponent.toNat * unitsPerOne, 1)
  else (d.coefficient * unitsPerOne, tenPow (-d.exponent).toNat)

/-- The rank nearest to a decimal. Decimals of at least `2 ^ 1100` and below `2 ^ -1100` are
recognised by their size alone, so that a huge exponent costs nothing. -/
def rank (d : Decimal) : Nat :=
  if d.coefficient = 0 then 0
  else if 1100 < (d.coefficient.log2 : Int) + 3 * d.exponent ∧ 0 ≤ d.exponent then topRank
  else if (d.coefficient.log2 : Int) + 1 + 3 * d.exponent < -1100 ∧ d.exponent < 0 then 0
  else nearestRank d.unitsRatio.1 d.unitsRatio.2

end Decimal

/-- The number nearest to a decimal of the given sign. -/
def Binary64.ofDecimal (negative : Bool) (d : Decimal) : Binary64 := .ofRank negative d.rank

/-! ## Reading numerals -/

/-- The exponent part `e`, `e+` or `e-` and digits at the head of a text: its value and the rest.
There is none without at least one digit. -/
def scanExponent? : List Char → Option (Int × List Char)
  | c :: rest =>
    if c = 'e' ∨ c = 'E' then
      let (negative, body) : Bool × List Char := match rest with
        | '-' :: r => (true, r)
        | '+' :: r => (false, r)
        | r => (false, r)
      let digits := body.takeWhile Char.isDigit
      if digits.isEmpty then none
      else
        let size : Int := digitsValue digits
        some (if negative then -size else size, body.dropWhile Char.isDigit)
    else none
  | [] => none

/-- The longest numeral `digits [. digits] [exponent]` or `. digits [exponent]` at the head of a
text, and what follows it. -/
def scanNumeral (cs : List Char) : Option (Decimal × List Char) :=
  let whole := cs.takeWhile Char.isDigit
  let afterWhole := cs.dropWhile Char.isDigit
  let (fraction, afterFraction) : List Char × List Char := match afterWhole with
    | '.' :: r => (r.takeWhile Char.isDigit, r.dropWhile Char.isDigit)
    | r => ([], r)
  if whole.isEmpty && fraction.isEmpty then none
  else
    let (power, rest) := (scanExponent? afterFraction).getD (0, afterFraction)
    some (⟨digitsValue (whole ++ fraction), power - fraction.length⟩, rest)

/-- The value of a text that is a numeral. -/
def Binary64.ofNumeral (cs : List Char) : Binary64 :=
  match scanNumeral cs with
  | some (d, _) => .ofDecimal false d
  | none => .nan false

/-- A text without the single underscores between its digits. An underscore may stand nowhere else;
`afterDigit` holds when a digit stands before the text. -/
def ungroup? (afterDigit : Bool) : List Char → Option (List Char)
  | [] => some []
  | '_' :: c :: rest =>
    if afterDigit && c.isDigit then (ungroup? true rest).map (c :: ·) else none
  | c :: rest => if c = '_' then none else (ungroup? c.isDigit rest).map (c :: ·)

/-- A text as it is read for a number: without blanks around it and underscores between its digits,
and with ASCII digits. -/
def plainNumeral? (s : String) : Option (List Char) :=
  ungroup? false ((trimBlank s.toList).map asciiDigit)

/-- Reads a number: an optional sign, then a numeral or the word for infinity or NaN in any
case. -/
def Binary64.read? (s : String) : Option Binary64 :=
  (plainNumeral? s).bind fun cs =>
  let (negative, body) : Bool × List Char := match cs with
    | '-' :: r => (true, r)
    | '+' :: r => (false, r)
    | r => (false, r)
  let word := String.ofList (body.map Char.toLower)
  if word = "nan" then some (.nan negative)
  else if word = "inf" ∨ word = "infinity" then some (.infinity negative)
  else
    match scanNumeral body with
    | some (d, []) => some (.ofDecimal negative d)
    | _ => none

/-! ## Writing digits -/

/-- The quotient `⌊u / (2¹⁰⁷⁴ · 10ᵏ)⌋` of `u` units as a numerator and a denominator. -/
def scaledRatio (u : Nat) (k : Int) : Nat × Nat :=
  if 0 ≤ k then (u, unitsPerOne * tenPow k.toNat) else (u * tenPow (-k).toNat, unitsPerOne)

/-- Whether `u` units are less than `10ᵏ`. -/
def belowPowerOfTen (u : Nat) (k : Int) : Bool :=
  (scaledRatio u k).1 < (scaledRatio u k).2

/-- The exponent of the leading decimal digit of `u > 0` units, from the binary exponent times
`log₁₀ 2` and a comparison with the neighbouring powers of ten. -/
def decimalExponent (u : Nat) : Int :=
  let guess := ((u.log2 : Int) - 1074) * 30103 / 100000
  if belowPowerOfTen u guess then guess - 1
  else if belowPowerOfTen u (guess + 1) then guess
  else guess + 1

/-- The decimal with `count` significant digits nearest to `u > 0` units, a half going to the even
digit. Rounding up may carry to one digit more, whose last digit is then zero. -/
def nearestDigits (count u : Nat) : Decimal :=
  let k := decimalExponent u + 1 - count
  let (n, d) := scaledRatio u k
  ⟨divNearestEven n d, k⟩

/-- The decimals with `count` significant digits next below and next above `u > 0` units, the
nearer one first; of two equally near ones the even one comes first. -/
def neighbourDigits (count u : Nat) : List Decimal :=
  let k := decimalExponent u + 1 - count
  let (n, d) := scaledRatio u k
  let low := n / d
  let near := divNearestEven n d
  if near = low then [⟨low, k⟩, ⟨low + 1, k⟩] else [⟨low + 1, k⟩, ⟨low, k⟩]

/-- The **shortest decimal** of a rank: over `1, 2, …, 17` significant digits, the first neighbour
of the exact value that reads back as the same rank. Seventeen digits always do. -/
def shortestDigits (rank : Nat) : Decimal :=
  let u := units rank
  ((List.range 17).findSome? fun i =>
    (neighbourDigits (i + 1) u).find? fun d => d.rank = rank).getD (nearestDigits 17 u)

end Reckoner
