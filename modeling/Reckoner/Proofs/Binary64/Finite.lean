import Reckoner.Binary64.Basic

/-! # Whole numbers that are finite as binary64 numbers

Rounding moves a magnitude by at most one step, so a whole number well below the largest finite
magnitude does not become infinite.

* **`nearestRank_le`** — a bound on the rank of a whole number of units by its binary logarithm.
* **`Binary64.isFinite_ofInt`** — integers below `2 ^ 1020` are finite.
* **`Binary64.exists_truncate`, `Binary64.truncate?_eq_none`** — what has an integer part. -/

namespace Reckoner

/-- Powers of two are positive. -/
@[simp] theorem twoPow_pos (n : Nat) : 0 < twoPow n := Nat.two_pow_pos n

/-- Powers of two grow. -/
theorem twoPow_le {m n : Nat} (h : m ≤ n) : twoPow m ≤ twoPow n :=
  Nat.pow_le_pow_right (by decide) h

/-- Powers of two multiply by adding their exponents. -/
theorem twoPow_mul (m n : Nat) : twoPow m * twoPow n = twoPow (m + n) :=
  (Nat.pow_add 2 m n).symm

/-- The logarithm of what is below a power of two. -/
theorem log2_lt_of_lt_twoPow {n k : Nat} (hn : n ≠ 0) (h : n < twoPow k) : n.log2 < k :=
  (Nat.log2_lt hn).mpr h

/-- Rounding adds at most one. -/
theorem divNearestEven_le (n d : Nat) : divNearestEven n d ≤ n / d + 1 := by
  simp only [divNearestEven]
  split
  · omega
  · split <;> omega

/-- The rank of a whole number of units is bounded by its binary logarithm. -/
theorem nearestRank_le (n : Nat) :
    nearestRank n 1 ≤ (n.log2 - 52) * twoPow 52 + twoPow 53 := by
  have hquotient : n / twoPow (n.log2 - 52) < twoPow 53 := by
    rw [Nat.div_lt_iff_lt_mul (twoPow_pos _), twoPow_mul]
    have hlog : n < twoPow (n.log2 + 1) := Nat.lt_log2_self
    exact Nat.lt_of_lt_of_le hlog (twoPow_le (by omega))
  -- a significand of at most 53 digits, and one more step for the rounding
  have hround := divNearestEven_le n (twoPow (n.log2 - 52))
  rw [nearestRank, Nat.div_one, Nat.one_mul]
  exact Nat.add_le_add_left (Nat.le_trans hround hquotient) _

namespace Binary64

/-- Ranks below `topRank` are those of finite numbers. -/
@[simp] theorem isFinite_ofRank {negative : Bool} {rank : Nat} (h : rank < topRank) :
    (ofRank negative rank).isFinite = true := by
  simp [ofRank, isFinite, Nat.min_eq_left (Nat.le_of_lt h), h]

/-- **Integers below `2 ^ 1020` are finite.** -/
@[simp] theorem isFinite_ofInt {z : Int} (h : z.natAbs < twoPow 1020) : (ofInt z).isFinite = true := by
  refine isFinite_ofRank ?_
  -- `2 ^ 1074` units make one
  have hunits : z.natAbs * unitsPerOne < twoPow 2094 := by
    have hproduct := Nat.mul_lt_mul_of_pos_right h (twoPow_pos 1074)
    rwa [twoPow_mul] at hproduct
  have hlog : (z.natAbs * unitsPerOne).log2 ≤ 2093 := by
    by_cases hzero : z.natAbs * unitsPerOne = 0
    · rw [hzero]
      decide
    · exact Nat.le_of_lt_succ (log2_lt_of_lt_twoPow hzero hunits)
  have hrank := nearestRank_le (z.natAbs * unitsPerOne)
  have hbound : ((z.natAbs * unitsPerOne).log2 - 52) * twoPow 52 ≤ 2041 * twoPow 52 :=
    Nat.mul_le_mul_right _ (by omega)
  have htop : 2041 * twoPow 52 + twoPow 53 < topRank := by decide
  exact Nat.lt_of_le_of_lt hrank (Nat.lt_of_le_of_lt (Nat.add_le_add_right hbound _) htop)

/-- A finite number has units, with its sign. -/
@[simp] theorem units?_number {s : Bool} {r : Nat} {hr : r ≤ topRank} (h : r < topRank) :
    (number s r hr).units? = some (if s then -(units r : Int) else units r) := by
  rw [units?, if_pos h]

/-- The integer part of a finite number: the quotient of its magnitude, with its sign. -/
@[simp] theorem truncate?_number {s : Bool} {r : Nat} {hr : r ≤ topRank} (h : r < topRank) :
    (number s r hr).truncate? =
      some (if s then -((units r / unitsPerOne : Nat) : Int) else (units r / unitsPerOne : Nat)) := by
  rw [truncate?, units?_number h]
  cases s with
  | true =>
    show some (Int.tdiv (-(units r : Int)) _) = _
    rw [Int.neg_tdiv]
    rfl
  | false => rfl

/-- Every finite number has an integer part. -/
theorem exists_truncate {x : Binary64} (h : x.isFinite = true) : ∃ z, x.truncate? = some z := by
  cases x with
  | nan s => cases h
  | number s r hr => exact ⟨_, truncate?_number (of_decide_eq_true h)⟩

/-- What is not finite has none. -/
@[simp] theorem truncate?_eq_none {x : Binary64} (h : x.isFinite = false) : x.truncate? = none := by
  cases x with
  | nan s => rfl
  | number s r hr =>
    have hlt : ¬ r < topRank := of_decide_eq_false h
    rw [truncate?, units?, if_neg hlt]
    rfl

end Binary64

end Reckoner
