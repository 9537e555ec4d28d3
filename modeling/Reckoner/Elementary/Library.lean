import Reckoner.Elementary.Circular
import Reckoner.Elementary.Power
import Reckoner.Symbol.Function

/-! # A numerical library

The numerical library of this program: elementary functions and powers are correctly rounded, and sums are
taken in the order that keeps rounding errors small.

* **`pairwiseSum`** — the sum of a list in that order.
* **`keepLatest`** — the choice between two numbers that `least` and `greatest` repeat.
* **`UnaryFunction.value`** — the functions of one argument.
* **`standardNumerics`** — the library. -/

namespace Reckoner

/-! ## Sums -/

/-- The sum of fewer than eight numbers from left to right, starting from `-0.0`, which adds
nothing to any number. -/
def sumInOrder (xs : List Binary64) : Binary64 := xs.foldl (· + ·) (.zero true)

/-- Adds two lists position by position; what the second has in excess is dropped. -/
def addColumns (acc row : List Binary64) : List Binary64 := List.zipWith (· + ·) acc row

/-- Cuts a list into rows of eight; an incomplete last row is returned apart. -/
def rowsOfEight (xs : List Binary64) : List (List Binary64) × List Binary64 :=
  if h : 8 ≤ xs.length then
    have : (xs.drop 8).length < xs.length := by
      rw [List.length_drop]
      omega
    let (rows, rest) := rowsOfEight (xs.drop 8)
    (xs.take 8 :: rows, rest)
  else ([], xs)
termination_by xs.length

/-- The sum of eight numbers as a balanced tree. -/
def sumOfEight : List Binary64 → Binary64
  | [a, b, c, d, e, f, g, h] => ((a + b) + (c + d)) + ((e + f) + (g + h))
  | xs => sumInOrder xs

/-- The sum of a block of at least eight numbers: eight running sums over the complete rows, then
what is left one by one. -/
def sumOfBlock (xs : List Binary64) : Binary64 :=
  match rowsOfEight xs with
  | (row :: rows, rest) => rest.foldl (· + ·) (sumOfEight (rows.foldl addColumns row))
  | ([], rest) => sumInOrder rest

/-- Where a long list is cut: near the middle, after a whole number of rows. -/
def cut (n : Nat) : Nat := n / 2 - n / 2 % 8

/-- The first part of a long list is shorter. -/
theorem length_take_cut_lt {xs : List Binary64} (h : ¬ xs.length ≤ 128) :
    (xs.take (cut xs.length)).length < xs.length := by
  rw [List.length_take, cut]
  omega

/-- So is the second. -/
theorem length_drop_cut_lt {xs : List Binary64} (h : ¬ xs.length ≤ 128) :
    (xs.drop (cut xs.length)).length < xs.length := by
  rw [List.length_drop, cut]
  omega

/-- The **pairwise sum**: few numbers in order, up to 128 as one block, and more than that in two
halves, the first of which is a whole number of rows. -/
def pairwiseSum (xs : List Binary64) : Binary64 :=
  if xs.length < 8 then sumInOrder xs
  else if xs.length ≤ 128 then sumOfBlock xs
  else pairwiseSum (xs.take (cut xs.length)) + pairwiseSum (xs.drop (cut xs.length))
termination_by xs.length
decreasing_by
  · exact length_take_cut_lt (by assumption)
  · exact length_drop_cut_lt (by assumption)

/-- The sum of all arguments; that of none is zero. -/
def sumOf (xs : List Binary64) : Binary64 := .zero false + pairwiseSum xs

/-! ## Extrema -/

/-- The second of two numbers unless the first is strictly before it; NaN if either is one. So the
last of several equal numbers is kept, which tells the zeros apart. -/
def keepLatest (before : Binary64 → Binary64 → Bool) (x y : Binary64) : Binary64 :=
  if x.isNaN then x else if y.isNaN then y else if before x y then x else y

/-! ## The library -/

/-- The value of a function. -/
def UnaryFunction.value : UnaryFunction → Binary64 → Binary64
  | .abs => Binary64.abs
  | .acos => Binary64.acos
  | .acosh => Binary64.acosh
  | .asin => Binary64.asin
  | .asinh => Binary64.asinh
  | .atan => Binary64.atan
  | .atanh => Binary64.atanh
  | .bitDecrement => Binary64.nextDown
  | .bitIncrement => Binary64.nextUp
  | .cbrt => Binary64.cbrt
  | .ceiling => Binary64.ceiling
  | .cos => Binary64.cos
  | .cosh => Binary64.cosh
  | .exp => Binary64.exp
  | .floor => Binary64.floor
  | .log => Binary64.log
  | .log10 => Binary64.log10
  | .log2 => Binary64.log2
  | .round => Binary64.roundHalfEven
  | .sin => Binary64.sin
  | .sinh => Binary64.sinh
  | .sqrt => Binary64.sqrt
  | .tan => Binary64.tan
  | .tanh => Binary64.tanh
  | .truncate => Binary64.truncate

/-- **The numerical library of this program.** -/
instance standardNumerics : Numerics where
  unary := UnaryFunction.value
  positive := fun x => x
  power := Binary64.pow
  atan2 := Binary64.atan2
  fmod := Binary64.fmod
  copySign := Binary64.copySign
  sum := sumOf
  mean := fun xs => sumOf xs / .ofNat xs.length
  least := fun x xs => xs.foldl (keepLatest fun y z => y.lt z) x
  greatest := fun x xs => xs.foldl (keepLatest fun y z => z.lt y) x

end Reckoner
