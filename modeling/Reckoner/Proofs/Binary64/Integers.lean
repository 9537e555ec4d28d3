import Reckoner.Proofs.Binary64.Rounding

/-! # Integers that are exact

An integer of at most 53 binary digits is a magnitude of the chain, so nothing is lost when it becomes a
number.

* **`nearestRank_units`** — a magnitude is rounded to its own rank.
* **`exists_rank`** — whole numbers up to `2⁵³` are magnitudes.
* **`Binary64.units?_ofInt`** — so the integers up to `2⁵³` are exact.
* **`Binary64.IntegerPart`** — the integer that a number is truncated to. -/

namespace Reckoner

/-- Powers of two grow strictly. -/
theorem twoPow_lt {m n : Nat} (h : m < n) : twoPow m < twoPow n :=
  Nat.pow_lt_pow_right (by decide) h

/-- **A magnitude is rounded to its own rank.** -/
@[simp] theorem nearestRank_units (r : Nat) : nearestRank (units r) 1 = r := by
  refine nearestRank_eq_of_between Nat.one_pos ?_ ?_
  · rintro q rfl
    have hless := units_lt_succ q
    omega
  · have hless := units_lt_succ r
    omega

/-- **Whole numbers up to `2⁵³` are magnitudes.** Their digits are moved to the front of the significand,
and the step is made smaller as much. -/
theorem exists_rank {n : Nat} (h : n ≤ twoPow 53) : ∃ r, r < topRank ∧ units r = n * unitsPerOne := by
  by_cases hzero : n = 0
  · exact ⟨0, by decide, by rw [hzero, Nat.zero_mul]; decide⟩
  have hlow : twoPow n.log2 ≤ n := Nat.log2_self_le hzero
  have hhigh : n < twoPow (n.log2 + 1) := Nat.lt_log2_self
  have hsignificand : Significand (1074 - (52 - n.log2)) (n * twoPow (52 - n.log2)) := by
    by_cases hlog : n.log2 ≤ 52
    · constructor
      · have hscaled := Nat.mul_le_mul_right (twoPow (52 - n.log2)) (Nat.le_of_lt hhigh)
        rw [twoPow_mul] at hscaled
        exact Nat.le_trans hscaled (twoPow_le (by omega))
      · have hscaled := Nat.mul_le_mul_right (twoPow (52 - n.log2)) hlow
        rw [twoPow_mul] at hscaled
        exact .inr (Nat.le_trans (twoPow_le (by omega)) hscaled)
    · have hnone : 52 - n.log2 = 0 := by omega
      have hone : n * twoPow 0 = n := Nat.mul_one n
      rw [hnone, hone]
      exact ⟨h, .inr (Nat.le_trans (twoPow_le (by omega)) hlow)⟩
  have hunits : units ((1074 - (52 - n.log2)) * twoPow 52 + n * twoPow (52 - n.log2)) =
      n * unitsPerOne := by
    rw [units_significand hsignificand, Nat.mul_assoc, twoPow_mul, Nat.add_sub_cancel' (by omega)]
    rfl
  refine ⟨_, Nat.lt_of_not_le fun htop => ?_, hunits⟩
  -- the magnitude would be that of infinity at least
  have hlarge := units_mono htop
  rw [units_topRank, hunits, unitsPerOne] at hlarge
  have hsmall := Nat.mul_le_mul_right (twoPow 1074) h
  rw [twoPow_mul] at hsmall
  have hless : twoPow (53 + 1074) < twoPow 2098 := twoPow_lt (by decide)
  omega

namespace Binary64

/-- **Integers up to `2⁵³` are exact.** -/
@[simp] theorem units?_ofInt {z : Int} (h : z.natAbs ≤ twoPow 53) :
    (ofInt z).units? = some (z * unitsPerOne) := by
  obtain ⟨r, htop, hunits⟩ := exists_rank h
  rw [ofInt, ofRatio, ← hunits, nearestRank_units, ofRank_rank _ r (Nat.le_of_lt htop), units?,
    if_pos htop, hunits]
  by_cases hz : z < 0
  · rw [if_pos (decide_eq_true hz), Int.natCast_mul, ← Int.neg_mul]
    congr 2
    omega
  · rw [if_neg (by simpa using hz), Int.natCast_mul]
    congr 2
    omega

/-- The **integer part** of a number: it has the sign of the number, and its magnitude is the greatest
whole number that is not above that of the number. -/
structure IntegerPart (x : Binary64) (z : Int) : Prop where
  exists_units : ∃ u, x.units? = some u ∧ z.natAbs * unitsPerOne ≤ u.natAbs ∧
    u.natAbs < (z.natAbs + 1) * unitsPerOne ∧ (0 ≤ u → 0 ≤ z) ∧ (u ≤ 0 → z ≤ 0)

/-- **Truncation yields the integer part.** -/
theorem integerPart_of_truncate? {x : Binary64} {z : Int} (h : x.truncate? = some z) :
    x.IntegerPart z := by
  rw [truncate?, Option.map_eq_some_iff] at h
  obtain ⟨u, hu, rfl⟩ := h
  have hpos : 0 < unitsPerOne := twoPow_pos 1074
  have hquotient : (u.tdiv unitsPerOne).natAbs = u.natAbs / unitsPerOne := by
    rw [Int.natAbs_tdiv, Int.natAbs_natCast]
    rfl
  refine ⟨u, hu, ?_, ?_, ?_, ?_⟩
  · rw [hquotient]
    exact Nat.div_mul_le_self _ _
  · rw [hquotient]
    exact Nat.lt_mul_of_div_lt (Nat.lt_succ_self _) hpos
  · intro hu
    exact Int.tdiv_nonneg hu (Int.natCast_nonneg _)
  · intro hu
    have hopposite := Int.tdiv_nonneg (Int.neg_nonneg.mpr hu) (Int.natCast_nonneg unitsPerOne)
    rw [Int.neg_tdiv] at hopposite
    exact Int.neg_nonneg.mp hopposite

end Binary64

end Reckoner
