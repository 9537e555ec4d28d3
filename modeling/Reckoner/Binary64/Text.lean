import Reckoner.Binary64.Decimal

/-! # Number text

How a binary64 number is written. A decimal is laid out by **`NumberStyle`**: which exponents are
written positionally and whether a whole number keeps its `.0`; the exponent always has a sign and
at least two digits.

* **`NumberStyle.layout`** — the text of a digit string and the exponent of its first digit.
* **`Binary64.shortest`** — the shortest text that reads back, positional from `10⁻⁴` below `10¹⁶`.
* **`Binary64.general`** — a given number of significant digits, without trailing zeros.
* **`Binary64.display`** — what a user sees for a chosen precision. -/

namespace Reckoner

/-- How decimals are laid out. -/
structure NumberStyle where
  /-- The least exponent of the first digit that is written positionally. -/
  leastPositional : Int
  /-- The least exponent of the first digit that is too large to be written positionally. -/
  firstScientific : Int
  /-- Whether a whole number written positionally ends in `.0`. -/
  keepsPointZero : Bool

namespace NumberStyle

/-- The style of round-trip text. -/
def roundTrip : NumberStyle := ⟨-4, 16, true⟩

/-- The style of text with `count` significant digits. -/
def significant (count : Nat) : NumberStyle := ⟨-4, count, false⟩

/-- The exponent part: `e`, a sign and at least two digits. -/
def exponentText (e : Int) : String :=
  let digits := toString e.natAbs
  let sign := if e < 0 then "-" else "+"
  "e" ++ sign ++ (if digits.length < 2 then "0" ++ digits else digits)

/-- Lays out the digits `d₀ d₁ …`, which stand for `d₀.d₁… · 10 ^ exponent` and do not end in a
zero unless there is only one. -/
def layout (style : NumberStyle) (digits : List Char) (exponent : Int) : String :=
  if exponent < style.leastPositional ∨ style.firstScientific ≤ exponent then
    let body := match digits with
      | d :: e :: more => d :: '.' :: e :: more
      | short => short
    String.ofList body ++ exponentText exponent
  else if exponent < 0 then
    "0." ++ String.ofList (List.replicate (-exponent - 1).toNat '0' ++ digits)
  else
    let places := exponent.toNat + 1
    let whole := digits.take places ++ List.replicate (places - digits.length) '0'
    let fraction := digits.drop places
    if fraction.isEmpty then String.ofList whole ++ (if style.keepsPointZero then ".0" else "")
    else String.ofList whole ++ "." ++ String.ofList fraction

end NumberStyle

/-- The digits of a natural number without the zeros at its end; zero is the single digit `0`. -/
def strippedDigits (n : Nat) : List Char :=
  match ((Nat.toDigits 10 n).reverse.dropWhile (· = '0')).reverse with
  | [] => ['0']
  | digits => digits

/-- The exponent of the first digit of a nonzero decimal. -/
def Decimal.leadingExponent (d : Decimal) : Int :=
  (Nat.toDigits 10 d.coefficient).length - 1 + d.exponent

/-- Writes a decimal in a style, without trailing zeros. -/
def Decimal.write (style : NumberStyle) (d : Decimal) : String :=
  if d.coefficient = 0 then style.layout ['0'] 0
  else style.layout (strippedDigits d.coefficient) d.leadingExponent

namespace Binary64

/-- Writes a number whose finite nonzero magnitudes become decimals by `digits`. -/
def write (style : NumberStyle) (digits : Nat → Decimal) : Binary64 → String
  | .nan _ => "nan"
  | .number s r _ =>
    let body :=
      if r = topRank then "inf"
      else if r = 0 then Decimal.write style ⟨0, 0⟩
      else (digits r).write style
    if s then "-" ++ body else body

/-- The shortest text that reads back as the same number; a whole number written positionally ends
in `.0`. -/
def shortest (x : Binary64) : String := x.write .roundTrip shortestDigits

/-- The text with at most `count` significant digits. -/
def general (count : Nat) (x : Binary64) : String :=
  x.write (.significant count) fun r => nearestDigits count (units r)

/-- The text for a chosen precision: at seventeen digits and more the shortest text without a final
`.0`, below that the given number of significant digits, at least one. -/
def display (x : Binary64) (precision : Nat) : String :=
  if 17 ≤ precision then x.write { NumberStyle.roundTrip with keepsPointZero := false } shortestDigits
  else x.general (max precision 1)

instance : ToString Binary64 := ⟨shortest⟩

end Binary64

end Reckoner
