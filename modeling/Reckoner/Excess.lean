/-! # What is too large

Some things are too large to be read or written at all.

* **`isOverlong`** — an integer with too many digits.
* **`Excess`** — what is too large, and the text that says so. -/

namespace Reckoner

/-- How many digits an integer in base ten may have. -/
def maxIntegerDigits : Nat := 4300

/-- The least natural number that has more digits. -/
@[irreducible] def overlongFrom : Nat := Nat.pow 10 maxIntegerDigits

/-- Numbers of one digit have few digits. -/
theorem one_lt_overlongFrom : 1 < overlongFrom := by
  -- the power is not computed
  have hpower : ∀ k, k ≠ 0 → 1 < Nat.pow 10 k := fun k hk => Nat.one_lt_pow hk (by decide)
  unfold overlongFrom
  exact hpower maxIntegerDigits (by decide)

/-- Whether an integer has more digits than it may have, the sign aside. -/
def isOverlong (n : Int) : Bool := overlongFrom ≤ n.natAbs

/-- The sign aside, the integers with too many digits are those from a power of ten on. -/
theorem isOverlong_iff {n : Int} : isOverlong n = true ↔ overlongFrom ≤ n.natAbs := by
  rw [isOverlong, decide_eq_true_iff]

/-- Zero has few digits. -/
@[simp] theorem isOverlong_zero : isOverlong 0 = false := by
  rw [← Bool.not_eq_true, isOverlong_iff, Nat.not_le]
  exact Nat.lt_trans Nat.zero_lt_one one_lt_overlongFrom

/-- The part of an integer below zero has few digits if there is no such part. -/
@[simp] theorem isOverlong_min_zero_of_nonneg {n : Int} (h : 0 ≤ n) : isOverlong (min n 0) = false := by
  rw [Int.min_eq_right h, isOverlong_zero]

/-- The part of an integer below zero has too many digits if the integer is negative and has. -/
@[simp] theorem isOverlong_min_zero_iff {n : Int} :
    isOverlong (min n 0) = true ↔ n < 0 ∧ isOverlong n = true := by
  by_cases h : n < 0
  · rw [Int.min_eq_left (Int.le_of_lt h), and_iff_right h]
  · rw [isOverlong_min_zero_of_nonneg (Int.not_lt.mp h)]
    exact iff_of_false Bool.false_ne_true fun hn => h hn.1

/-- What is **too large** to be read or written. -/
inductive Excess where
  /-- An integer to be read has so many digits. -/
  | digitsRead (count : Nat)
  /-- An integer to be written has too many digits. -/
  | digitsWritten
  /-- Lists and tables lie too deep in each other. -/
  | nesting
  deriving DecidableEq, Repr

/-- The text that says what is too large. -/
def Excess.message : Excess → String
  | .digitsRead count =>
    "Exceeds the limit (" ++ toString maxIntegerDigits ++
      " digits) for integer string conversion: value has " ++ toString count ++
      " digits; use sys.set_int_max_str_digits() to increase the limit"
  | .digitsWritten =>
    "Exceeds the limit (" ++ toString maxIntegerDigits ++
      " digits) for integer string conversion; use sys.set_int_max_str_digits() to increase the limit"
  | .nesting => "maximum recursion depth exceeded"

end Reckoner
