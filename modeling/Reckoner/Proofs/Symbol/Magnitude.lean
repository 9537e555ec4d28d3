import Mathlib.Data.Prod.Lex
import Mathlib.Order.WithBot
import Reckoner.Proofs.Binary64.Rounding
import Reckoner.Symbol.Function

/-! # The order of magnitudes

All numbers but NaN form a chain when they are ordered by their absolute values, and by their signs where
these are equal: a negative number comes before the positive one, and so do the two zeros and the two
infinities. The number of greater magnitude is the maximum of this order, and the number of smaller
magnitude the minimum.

* **`Binary64.magnitude`** — the exact absolute value, infinity above all others.
* **`Definite`** — the numbers that are not NaN, in that order (`Definite.le_iff`).
* **`maxMagnitude_eq`, `minMagnitude_eq`** — maximum and minimum.
* **`magnitudes_ordered`** — the laws of both functions, and what they do with NaN. -/

namespace Reckoner

/-! ## Magnitudes -/

/-- The exact **absolute value** in units; that of an infinity is above all others. -/
def Binary64.magnitude : Binary64 → WithTop Nat
  | .nan _ => ⊤
  | .number _ r _ => if r = topRank then ⊤ else WithTop.some (units r)

section Numbers

variable {s t : Bool} {r q : Nat} {hr : r ≤ topRank} {hq : q ≤ topRank}

open Binary64

/-- Magnitudes are in the order of the ranks. -/
@[simp] theorem magnitude_lt_iff : (number s r hr).magnitude < (number t q hq).magnitude ↔ r < q := by
  simp only [magnitude]
  by_cases hrtop : r = topRank
  · -- nothing is above infinity
    rw [if_pos hrtop]
    exact iff_of_false not_top_lt (by omega)
  · rw [if_neg hrtop]
    by_cases hqtop : q = topRank
    · rw [if_pos hqtop]
      exact iff_of_true (WithTop.coe_lt_top _) (by omega)
    · rw [if_neg hqtop, WithTop.coe_lt_coe, units_strictMono.lt_iff_lt]

/-- Magnitudes are the same when the ranks are. -/
@[simp] theorem magnitude_eq_iff : (number s r hr).magnitude = (number t q hq).magnitude ↔ r = q := by
  constructor
  · intro heq
    have hless : ¬ r < q := fun h => absurd heq (ne_of_lt (magnitude_lt_iff.mpr h))
    have hgreater : ¬ q < r := fun h => absurd heq.symm (ne_of_lt (magnitude_lt_iff.mpr h))
    omega
  · rintro rfl
    rfl

/-- Magnitudes are compared by rank. -/
@[simp] theorem lt_abs_abs : (number s r hr).abs.lt (number t q hq).abs = decide (r < q) := by
  simp [Binary64.abs, Binary64.lt, place]

/-- And so is their equality. -/
@[simp] theorem eqv_abs_abs : (number s r hr).abs.eqv (number t q hq).abs = decide (r = q) := by
  show ((r : Int) == (q : Int)) = decide (r = q)
  exact decide_eq_decide.mpr Int.natCast_inj

end Numbers

/-! ## The order -/

/-- A **definite** number: one that is not NaN. -/
@[ext]
structure Definite where
  /-- The number. -/
  value : Binary64
  isNaN_value : value.isNaN = false

namespace Definite

/-- A definite number has a sign and a rank. -/
theorem exists_number (x : Definite) : ∃ s r hr, x.value = .number s r hr := by
  obtain ⟨value, hvalue⟩ := x
  cases value with
  | nan s => cases hvalue
  | number s r hr => exact ⟨s, r, hr, rfl⟩

/-- What definite numbers are ordered by: first the magnitude, and then the sign. -/
def key (x : Definite) : WithTop Nat ×ₗ Bool := toLex (x.value.magnitude, !x.value.isNegative)

/-- Different numbers have different keys. -/
theorem key_injective : Function.Injective key := by
  intro x y h
  have hpair := toLex.injective h
  obtain ⟨s, r, hr, hx⟩ := x.exists_number
  obtain ⟨t, q, hq, hy⟩ := y.exists_number
  obtain ⟨hmagnitude, hsign⟩ := Prod.mk.inj hpair
  rw [hx, hy] at hmagnitude hsign
  obtain rfl := magnitude_eq_iff.mp hmagnitude
  obtain rfl : s = t := Bool.not_inj hsign
  exact Definite.ext (hx.trans hy.symm)

instance : LinearOrder Definite := LinearOrder.lift' key key_injective

/-- **The order of definite numbers** is that of their magnitudes. Of two numbers with the same magnitude a
negative one comes first. -/
theorem le_iff {x y : Definite} :
    x ≤ y ↔ x.value.magnitude < y.value.magnitude ∨
      x.value.magnitude = y.value.magnitude ∧
        (x.value.isNegative = true ∨ y.value.isNegative = false) := by
  have hsign : ∀ s t : Bool, (!s) ≤ (!t) ↔ s = true ∨ t = false := by decide
  rw [← hsign]
  exact Prod.Lex.toLex_le_toLex

/-- The order of absolute values is that of magnitudes. -/
@[simp] theorem lt_abs_iff (x y : Definite) :
    x.value.abs.lt y.value.abs = true ↔ x.value.magnitude < y.value.magnitude := by
  obtain ⟨s, r, hr, hx⟩ := x.exists_number
  obtain ⟨t, q, hq, hy⟩ := y.exists_number
  rw [hx, hy, lt_abs_abs, decide_eq_true_iff, magnitude_lt_iff]

/-- And their equality that of magnitudes. -/
@[simp] theorem eqv_abs_iff (x y : Definite) :
    x.value.abs.eqv y.value.abs = true ↔ x.value.magnitude = y.value.magnitude := by
  obtain ⟨s, r, hr, hx⟩ := x.exists_number
  obtain ⟨t, q, hq, hy⟩ := y.exists_number
  rw [hx, hy, eqv_abs_abs, decide_eq_true_iff, magnitude_eq_iff]

end Definite

/-! ## Maximum and minimum -/

/-- **The number of greater magnitude** is the maximum. -/
@[simp] theorem maxMagnitude_eq (x y : Definite) : maxMagnitude x.value y.value = (max x y).value := by
  rw [maxMagnitude, x.isNaN_value, Bool.or_false]
  by_cases hgreater : y.value.magnitude < x.value.magnitude
  · rw [if_pos ((y.lt_abs_iff x).mpr hgreater), max_eq_left (Definite.le_iff.mpr (.inl hgreater))]
  · rw [if_neg fun h => hgreater ((y.lt_abs_iff x).mp h)]
    by_cases hequal : x.value.magnitude = y.value.magnitude
    · rw [if_pos ((x.eqv_abs_iff y).mpr hequal)]
      -- the signs decide
      by_cases hnegative : x.value.isNegative = true
      · rw [if_pos hnegative, max_eq_right (Definite.le_iff.mpr (.inr ⟨hequal, .inl hnegative⟩))]
      · have hpositive := Bool.eq_false_iff.mpr hnegative
        rw [if_neg hnegative,
          max_eq_left (Definite.le_iff.mpr (.inr ⟨hequal.symm, .inr hpositive⟩))]
    · have hless := lt_of_le_of_ne (not_lt.mp hgreater) hequal
      rw [if_neg fun h => hequal ((x.eqv_abs_iff y).mp h),
        max_eq_right (Definite.le_iff.mpr (.inl hless))]

/-- **The number of smaller magnitude** is the minimum. -/
@[simp] theorem minMagnitude_eq (x y : Definite) : minMagnitude x.value y.value = (min x y).value := by
  rw [minMagnitude, x.isNaN_value, Bool.or_false]
  by_cases hless : x.value.magnitude < y.value.magnitude
  · rw [if_pos ((x.lt_abs_iff y).mpr hless), min_eq_left (Definite.le_iff.mpr (.inl hless))]
  · rw [if_neg fun h => hless ((x.lt_abs_iff y).mp h)]
    by_cases hequal : x.value.magnitude = y.value.magnitude
    · rw [if_pos ((x.eqv_abs_iff y).mpr hequal)]
      by_cases hnegative : x.value.isNegative = true
      · rw [if_pos hnegative, min_eq_left (Definite.le_iff.mpr (.inr ⟨hequal, .inl hnegative⟩))]
      · have hpositive := Bool.eq_false_iff.mpr hnegative
        rw [if_neg hnegative,
          min_eq_right (Definite.le_iff.mpr (.inr ⟨hequal.symm, .inr hpositive⟩))]
    · have hgreater := lt_of_le_of_ne (not_lt.mp hless) (Ne.symm hequal)
      rw [if_neg fun h => hequal ((x.eqv_abs_iff y).mp h),
        min_eq_right (Definite.le_iff.mpr (.inl hgreater))]

/-- **NaN on either side** is passed on. -/
theorem isNaN_magnitudes {x y : Binary64} (h : x.isNaN = true ∨ y.isNaN = true) :
    (maxMagnitude x y).isNaN = true ∧ (minMagnitude x y).isNaN = true := by
  cases x with
  | nan s =>
    rw [maxMagnitude, minMagnitude, Binary64.isNaN_nan, Bool.or_true, Bool.or_true]
    exact ⟨rfl, rfl⟩
  | number s r hr =>
    -- the first number is not NaN, and no comparison with NaN holds
    cases y with
    | nan t => exact ⟨rfl, rfl⟩
    | number t q hq => rcases h with h | h <;> cases h

/-- **The two functions of magnitudes are the maximum and the minimum of one order**, that of absolute
values and, where these are equal, of signs. So each of them is commutative, associative and idempotent,
each absorbs the other, and together they give back both numbers. NaN on either side is passed on by
both. -/
theorem magnitudes_ordered :
    (∀ x y : Definite, x ≤ y ↔ x.value.magnitude < y.value.magnitude ∨
      x.value.magnitude = y.value.magnitude ∧
        (x.value.isNegative = true ∨ y.value.isNegative = false)) ∧
    (∀ x y : Definite, maxMagnitude x.value y.value = (max x y).value ∧
      minMagnitude x.value y.value = (min x y).value) ∧
    (∀ x y : Definite, maxMagnitude x.value y.value = maxMagnitude y.value x.value ∧
      minMagnitude x.value y.value = minMagnitude y.value x.value) ∧
    (∀ x y z : Definite,
      maxMagnitude (maxMagnitude x.value y.value) z.value =
        maxMagnitude x.value (maxMagnitude y.value z.value) ∧
      minMagnitude (minMagnitude x.value y.value) z.value =
        minMagnitude x.value (minMagnitude y.value z.value)) ∧
    (∀ x : Definite, maxMagnitude x.value x.value = x.value ∧
      minMagnitude x.value x.value = x.value) ∧
    (∀ x y : Definite, maxMagnitude x.value (minMagnitude x.value y.value) = x.value ∧
      minMagnitude x.value (maxMagnitude x.value y.value) = x.value) ∧
    (∀ x y : Definite,
      maxMagnitude x.value y.value = x.value ∧ minMagnitude x.value y.value = y.value ∨
        maxMagnitude x.value y.value = y.value ∧ minMagnitude x.value y.value = x.value) ∧
    ∀ x y : Binary64, x.isNaN = true ∨ y.isNaN = true →
      (maxMagnitude x y).isNaN = true ∧ (minMagnitude x y).isNaN = true := by
  refine ⟨fun _ _ => Definite.le_iff, fun x y => ⟨maxMagnitude_eq x y, minMagnitude_eq x y⟩,
    ?_, ?_, ?_, ?_, ?_, fun _ _ => isNaN_magnitudes⟩
  · intro x y
    rw [maxMagnitude_eq, maxMagnitude_eq, minMagnitude_eq, minMagnitude_eq, max_comm, min_comm]
    exact ⟨rfl, rfl⟩
  · intro x y z
    rw [maxMagnitude_eq x, maxMagnitude_eq y, maxMagnitude_eq, maxMagnitude_eq, max_assoc,
      minMagnitude_eq x, minMagnitude_eq y, minMagnitude_eq, minMagnitude_eq, min_assoc]
    exact ⟨rfl, rfl⟩
  · intro x
    rw [maxMagnitude_eq, minMagnitude_eq, max_self, min_self]
    exact ⟨rfl, rfl⟩
  · intro x y
    rw [minMagnitude_eq, maxMagnitude_eq, maxMagnitude_eq, minMagnitude_eq,
      max_eq_left (min_le_left x y), min_eq_left (le_max_left x y)]
    exact ⟨rfl, rfl⟩
  · intro x y
    rw [maxMagnitude_eq, minMagnitude_eq]
    rcases le_total y x with h | h
    · rw [max_eq_left h, min_eq_right h]
      exact .inl ⟨rfl, rfl⟩
    · rw [max_eq_right h, min_eq_left h]
      exact .inr ⟨rfl, rfl⟩

/-- The zeros are told apart, and a NaN on the right is passed on. -/
theorem magnitudes_ordered_zeros :
    maxMagnitude (.zero true) (.zero false) = .zero false ∧
      maxMagnitude (.zero false) (.zero true) = .zero false ∧
      (maxMagnitude 2 (.nan true)).isNaN = true := by
  obtain ⟨-, -, hcomm, -, -, -, -, hnan⟩ := magnitudes_ordered
  have hzeros : maxMagnitude (.zero true) (.zero false) = .zero false := by decide
  have hswapped := (hcomm ⟨.zero true, rfl⟩ ⟨.zero false, rfl⟩).1
  exact ⟨hzeros, hswapped.symm.trans hzeros, (hnan 2 (.nan true) (.inr rfl)).1⟩

end Reckoner
