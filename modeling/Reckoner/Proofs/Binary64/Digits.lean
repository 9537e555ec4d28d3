import Reckoner.Binary64.Decimal
import Reckoner.Proofs.Binary64.Rounding

/-! # Decimals and the ranks that they read back as

A decimal is a quotient of units, and is rounded once. Seventeen significant digits are close enough to
a magnitude to be rounded back to it.

* **`Binary64.ofDecimal_eq_ofRatio`** — what decides by the size of a decimal alone changes nothing.
* **`Binary64.ofDecimal_shift`** — zeros may move from the coefficient to the exponent.
* **`reaches_decimalExponent`** — no magnitude is below the power of ten of its leading digit.
* **`rank_seventeen`** — seventeen digits of a magnitude are rounded back to it.
* **`rank_shortestDigits`** — so are its shortest digits. -/

namespace Reckoner

/-! ## Powers of ten -/

/-- Powers of ten are positive. -/
@[simp] theorem tenPow_pos (n : Nat) : 0 < tenPow n := Nat.pow_pos (by decide)

/-- The first power of ten. -/
@[simp] theorem tenPow_zero : tenPow 0 = 1 := rfl

/-- Powers of ten multiply by adding their exponents. -/
theorem tenPow_add (m n : Nat) : tenPow (m + n) = tenPow m * tenPow n := Nat.pow_add 10 m n

/-- One has units. -/
@[simp] theorem unitsPerOne_pos : 0 < unitsPerOne := by
  rw [unitsPerOne]
  exact twoPow_pos 1074

/-- Ten is more than two to the third. -/
theorem twoPow_le_tenPow (n : Nat) : twoPow (3 * n) ≤ tenPow n := by
  have hcube : twoPow (3 * n) = Nat.pow (Nat.pow 2 3) n := Nat.pow_mul 2 3 n
  rw [hcube]
  exact Nat.pow_le_pow_left (by decide) n

/-! ## Decimals as quotients of units -/

namespace Decimal

/-- Without places after the point, the units of a decimal are whole. -/
@[simp] theorem unitsRatio_natCast (c e : Nat) :
    (⟨c, e⟩ : Decimal).unitsRatio = (c * tenPow e * unitsPerOne, 1) := by
  rw [unitsRatio, if_pos (Int.natCast_nonneg e), Int.toNat_natCast]

/-- With places after the point, a power of ten divides. -/
@[simp] theorem unitsRatio_neg (c f : Nat) :
    (⟨c, -(f : Int)⟩ : Decimal).unitsRatio = (c * unitsPerOne, tenPow f) := by
  rw [unitsRatio]
  split
  · next h =>
    obtain rfl : f = 0 := by
      dsimp only at h
      omega
    exact congrArg (fun x => (x * unitsPerOne, 1)) (Nat.mul_one c)
  · rw [Int.neg_neg, Int.toNat_natCast]

/-- The units of a decimal are a ratio. -/
@[simp] theorem unitsRatio_pos (d : Decimal) : 0 < d.unitsRatio.2 := by
  rw [unitsRatio]
  split
  · exact Nat.one_pos
  · exact tenPow_pos _

/-- What is large by its size alone is not below infinity, which is `2 ^ 2098` units. -/
theorem units_topRank_le {c e : Nat} (hc : c ≠ 0) (h : 1100 < c.log2 + 3 * e) :
    units topRank * 1 ≤ c * tenPow e * unitsPerOne := by
  calc units topRank * 1 = twoPow 2098 := by rw [units_topRank, Nat.mul_one]
    _ ≤ twoPow (c.log2 + 3 * e + 1074) := twoPow_le (by omega)
    _ = twoPow c.log2 * twoPow (3 * e) * unitsPerOne := by rw [unitsPerOne, twoPow_mul, twoPow_mul]
    _ ≤ c * tenPow e * unitsPerOne :=
      Nat.mul_le_mul_right _ (Nat.mul_le_mul (Nat.log2_self_le hc) (twoPow_le_tenPow e))

/-- What is small by its size alone is below half a unit. -/
theorem two_mul_lt_tenPow {c f : Nat} (h : c.log2 + 1 + 1100 < 3 * f) :
    2 * (c * unitsPerOne) < tenPow f := by
  have hlog : c < twoPow (c.log2 + 1) := Nat.lt_log2_self
  have hunits := Nat.mul_lt_mul_of_pos_right hlog unitsPerOne_pos
  calc 2 * (c * unitsPerOne) < 2 * (twoPow (c.log2 + 1) * unitsPerOne) := by omega
    _ = twoPow (c.log2 + 1 + 1074 + 1) := by rw [unitsPerOne, twoPow_mul, ← twoPow_succ]
    _ ≤ twoPow (3 * f) := twoPow_le (by omega)
    _ ≤ tenPow f := twoPow_le_tenPow f

/-- What decides by the size of a decimal alone agrees with rounding, as far as infinity. -/
@[simp] theorem min_rank (d : Decimal) :
    min d.rank topRank = min (nearestRank d.unitsRatio.1 d.unitsRatio.2) topRank := by
  obtain ⟨c, k⟩ := d
  rw [rank]
  dsimp only
  split
  · next hzero =>
    subst hzero
    have hnone : (⟨0, k⟩ : Decimal).unitsRatio.1 = 0 := by
      rw [unitsRatio]
      split
      · rw [Nat.zero_mul, Nat.zero_mul]
      · exact Nat.zero_mul _
    rw [hnone, nearestRank_eq_zero (unitsRatio_pos _)]
  · next hc =>
    split
    · next hlarge =>
      obtain ⟨hsize, hk⟩ := hlarge
      obtain ⟨e, rfl⟩ := Int.eq_ofNat_of_zero_le hk
      have hsize' : 1100 < c.log2 + 3 * e := by omega
      have hinfinite := units_topRank_le hc hsize'
      rw [unitsRatio_natCast, Nat.min_self]
      exact (Nat.min_eq_right (topRank_le_nearestRank Nat.one_pos hinfinite)).symm
    · split
      · next hsmall =>
        obtain ⟨hsize, hk⟩ := hsmall
        obtain ⟨f, rfl⟩ := Int.exists_eq_neg_ofNat (Int.le_of_lt hk)
        have hhalf : 2 * (c * unitsPerOne) < tenPow f := two_mul_lt_tenPow (by omega)
        rw [unitsRatio_neg, nearestRank_eq_zero hhalf]
      · rfl

/-- A decimal has the nearest rank of its quotient when that is finite. -/
theorem rank_eq_of_nearestRank {d : Decimal} {r : Nat} (hr : r < topRank)
    (h : nearestRank d.unitsRatio.1 d.unitsRatio.2 = r) : d.rank = r := by
  have hmin := d.min_rank
  rw [h] at hmin
  omega

/-- Zeros at the end of a coefficient do not change the quotient. -/
theorem unitsRatio_shift (c j : Nat) (k : Int) :
    (⟨c * tenPow j, k⟩ : Decimal).unitsRatio.1 * (⟨c, k + j⟩ : Decimal).unitsRatio.2 =
      (⟨c, k + j⟩ : Decimal).unitsRatio.1 * (⟨c * tenPow j, k⟩ : Decimal).unitsRatio.2 := by
  obtain ⟨a, rfl | rfl⟩ := Int.eq_nat_or_neg k
  · rw [← Int.natCast_add, unitsRatio_natCast, unitsRatio_natCast, Nat.add_comm, tenPow_add,
      Nat.mul_assoc c]
  · rw [unitsRatio_neg]
    by_cases h : a ≤ j
    · obtain ⟨b, rfl⟩ := Nat.exists_eq_add_of_le h
      have hk : -(a : Int) + (a + b : Nat) = b := by omega
      rw [hk, unitsRatio_natCast, tenPow_add, Nat.mul_one]
      simp only [Nat.mul_comm, Nat.mul_left_comm]
    · obtain ⟨b, rfl⟩ := Nat.exists_eq_add_of_le (Nat.le_of_not_le h)
      have hk : -((j + b : Nat) : Int) + j = -(b : Int) := by omega
      rw [hk, unitsRatio_neg, tenPow_add, Nat.mul_right_comm c, Nat.mul_assoc]

end Decimal

namespace Binary64

/-- **A decimal is rounded once**, whatever its size. -/
theorem ofDecimal_eq_ofRatio (negative : Bool) (d : Decimal) :
    ofDecimal negative d = ofRatio negative d.unitsRatio.1 d.unitsRatio.2 := by
  simp only [ofDecimal, ofRatio, ofRank, d.min_rank]

/-- **Zeros may move** from the coefficient of a decimal to its exponent. -/
@[simp] theorem ofDecimal_shift (negative : Bool) (c j : Nat) (k : Int) :
    ofDecimal negative ⟨c * tenPow j, k⟩ = ofDecimal negative ⟨c, k + j⟩ := by
  rw [ofDecimal_eq_ofRatio, ofDecimal_eq_ofRatio, ofRatio, ofRatio,
    nearestRank_congr (Decimal.unitsRatio_pos _) (Decimal.unitsRatio_pos _)
      (Decimal.unitsRatio_shift c j k)]

end Binary64

/-! ## The leading digit -/

/-- To scale down is to divide by a power of ten. -/
@[simp] theorem scaledRatio_natCast (u e : Nat) : scaledRatio u e = (u, unitsPerOne * tenPow e) := by
  rw [scaledRatio, if_pos (Int.natCast_nonneg e), Int.toNat_natCast]

/-- To scale up is to multiply by one. -/
@[simp] theorem scaledRatio_neg (u f : Nat) : scaledRatio u (-(f : Int)) = (u * tenPow f, unitsPerOne) := by
  rw [scaledRatio]
  split
  · next h =>
    obtain rfl : f = 0 := by omega
    rw [Int.natCast_zero, Int.neg_zero, Int.toNat_zero, tenPow_zero, Nat.mul_one, Nat.mul_one]
  · rw [Int.neg_neg, Int.toNat_natCast]

/-- Scaled units are a ratio. -/
@[simp] theorem scaledRatio_pos (u : Nat) (k : Int) : 0 < (scaledRatio u k).2 := by
  rw [scaledRatio]
  split
  · dsimp only
    exact Nat.mul_pos unitsPerOne_pos (tenPow_pos _)
  · dsimp only
    exact unitsPerOne_pos

/-- A decimal and a magnitude on the scale of its exponent. -/
theorem unitsRatio_eq_scaledRatio (c u : Nat) (k : Int) :
    (⟨c, k⟩ : Decimal).unitsRatio.1 = c * (scaledRatio u k).2 ∧
      u * (⟨c, k⟩ : Decimal).unitsRatio.2 = (scaledRatio u k).1 := by
  obtain ⟨e, rfl | rfl⟩ := Int.eq_nat_or_neg k
  · rw [Decimal.unitsRatio_natCast, scaledRatio_natCast]
    dsimp only
    rw [Nat.mul_comm unitsPerOne, Nat.mul_assoc, Nat.mul_one]
    exact ⟨rfl, rfl⟩
  · rw [Decimal.unitsRatio_neg, scaledRatio_neg]
    dsimp only
    exact ⟨rfl, rfl⟩

/-- Whether `u` units reach `10ᵏ`. -/
def Reaches (u : Nat) (k : Int) : Prop := (scaledRatio u k).2 ≤ (scaledRatio u k).1

instance (u : Nat) (k : Int) : Decidable (Reaches u k) :=
  inferInstanceAs (Decidable ((scaledRatio u k).2 ≤ (scaledRatio u k).1))

/-- What is not below a power of ten reaches it. -/
theorem reaches_of_not_below {u : Nat} {k : Int} (h : ¬ belowPowerOfTen u k = true) :
    Reaches u k := by
  simp only [belowPowerOfTen, decide_eq_true_eq] at h
  exact Nat.le_of_not_lt h

/-- A power of ten that is whole is reached by so many units. -/
@[simp] theorem reaches_natCast {u e : Nat} : Reaches u e ↔ unitsPerOne * tenPow e ≤ u := by
  rw [Reaches, scaledRatio_natCast]

/-- A power of ten that is a fraction is reached when its multiple reaches one. -/
@[simp] theorem reaches_neg {u f : Nat} : Reaches u (-(f : Int)) ↔ unitsPerOne ≤ u * tenPow f := by
  rw [Reaches, scaledRatio_neg]

/-- Larger magnitudes reach what smaller ones reach. -/
theorem Reaches.mono {u v : Nat} {k : Int} (h : Reaches u k) (huv : u ≤ v) : Reaches v k := by
  obtain ⟨e, rfl | rfl⟩ := Int.eq_nat_or_neg k
  · exact reaches_natCast.mpr (Nat.le_trans (reaches_natCast.mp h) huv)
  · exact reaches_neg.mpr (Nat.le_trans (reaches_neg.mp h) (Nat.mul_le_mul_right _ huv))

/-- A magnitude reaches `10ᵏ` exactly when it is `10ʲ` times `10ᵏ⁻ʲ` or more. -/
theorem reaches_iff_tenPow_le {u : Nat} {k : Int} (j : Nat) :
    Reaches u k ↔ tenPow j * (scaledRatio u (k - j)).2 ≤ (scaledRatio u (k - j)).1 := by
  obtain ⟨e, rfl | rfl⟩ := Int.eq_nat_or_neg k
  · rw [reaches_natCast]
    by_cases hj : j ≤ e
    · obtain ⟨b, rfl⟩ := Nat.exists_eq_add_of_le hj
      have hk : ((j + b : Nat) : Int) - j = b := by omega
      rw [hk, scaledRatio_natCast]
      dsimp only
      rw [Nat.mul_left_comm (tenPow j), ← tenPow_add]
    · obtain ⟨b, rfl⟩ := Nat.exists_eq_add_of_le (Nat.le_of_not_le hj)
      have hk : (e : Int) - (e + b : Nat) = -(b : Int) := by omega
      rw [hk, scaledRatio_neg]
      dsimp only
      rw [tenPow_add, Nat.mul_right_comm, Nat.mul_comm (tenPow e)]
      exact (Nat.mul_le_mul_right_iff (tenPow_pos b)).symm
  · rw [reaches_neg]
    have hk : -(e : Int) - j = -((e + j : Nat) : Int) := by omega
    rw [hk, scaledRatio_neg]
    dsimp only
    rw [tenPow_add, ← Nat.mul_assoc, Nat.mul_comm (tenPow j)]
    exact (Nat.mul_le_mul_right_iff (tenPow_pos j)).symm

/-- The estimate of a decimal exponent is too large by one at most, over all binary exponents. -/
theorem reaches_estimate {l : Nat} (h : l < 2098) :
    Reaches (twoPow l) (((l : Int) - 1074) * 30103 / 100000 - 1) := by
  have hall : (List.range 2098).all
      (fun l => Reaches (twoPow l) (((l : Int) - 1074) * 30103 / 100000 - 1)) = true := by
    decide +kernel
  exact of_decide_eq_true (List.all_eq_true.mp hall l (List.mem_range.mpr h))

/-- **No magnitude is below the power of ten of its leading digit.** -/
theorem reaches_decimalExponent {u : Nat} (hpos : 0 < u) (h : u < twoPow 2098) :
    Reaches u (decimalExponent u) := by
  have hne := Nat.ne_of_gt hpos
  have hestimate := reaches_estimate (log2_lt_of_lt_twoPow hne h)
  rw [decimalExponent]
  split
  · exact hestimate.mono (Nat.log2_self_le hne)
  · next hguess =>
    split
    · exact reaches_of_not_below hguess
    · next hnext => exact reaches_of_not_below hnext

/-! ## Digits that read back -/

/-- Only zero has no units. -/
theorem units_pos {r : Nat} (h : 0 < r) : 0 < units r := by
  obtain ⟨q, rfl⟩ := Nat.exists_eq_succ_of_ne_zero (Nat.ne_of_gt h)
  exact Nat.lt_of_le_of_lt (Nat.zero_le _) (units_lt_succ q)

/-- All finite magnitudes are below a power of two. -/
theorem units_lt_twoPow {r : Nat} (h : r < topRank) : units r < twoPow 2098 := by
  rw [← units_topRank]
  exact Nat.lt_of_lt_of_le (units_lt_succ r) (units_mono h)

/-- **Seventeen digits of a magnitude** are rounded back to it. -/
@[simp] theorem rank_seventeen {r : Nat} (hpos : 0 < r) (htop : r < topRank) :
    (nearestDigits 17 (units r)).rank = r := by
  obtain ⟨q, rfl⟩ := Nat.exists_eq_succ_of_ne_zero (Nat.ne_of_gt hpos)
  have hreach :=
    (reaches_iff_tenPow_le 16).mp (reaches_decimalExponent (units_pos hpos) (units_lt_twoPow htop))
  have hk : decimalExponent (units (q + 1)) + 1 - (17 : Nat) =
      decimalExponent (units (q + 1)) - (16 : Nat) := by
    omega
  refine Decimal.rank_eq_of_nearestRank htop ?_
  rw [nearestDigits, hk]
  generalize decimalExponent (units (q + 1)) - (16 : Nat) = k at hreach ⊢
  dsimp only
  -- on the scale of the last digit, a rounded quotient misses the magnitude by a half at most
  obtain ⟨hlow, hhigh⟩ :=
    divNearestEven_bounds (scaledRatio (units (q + 1)) k).1 (scaledRatio_pos (units (q + 1)) k)
  generalize divNearestEven (scaledRatio (units (q + 1)) k).1 (scaledRatio (units (q + 1)) k).2 = c
    at hlow hhigh ⊢
  obtain ⟨hnumerator, hquotient⟩ := unitsRatio_eq_scaledRatio c (units (q + 1)) k
  rw [← hnumerator, ← hquotient] at hlow hhigh
  refine nearestRank_eq_of_near (Decimal.unitsRatio_pos _) ?_ hlow hhigh
  have hdigits : twoPow 53 < tenPow 16 := by decide
  rw [hquotient]
  exact Nat.lt_of_lt_of_le (Nat.mul_lt_mul_of_pos_right hdigits (scaledRatio_pos _ k)) hreach

/-- **The shortest digits of a magnitude** are rounded back to it. -/
@[simp] theorem rank_shortestDigits {r : Nat} (hpos : 0 < r) (htop : r < topRank) :
    (shortestDigits r).rank = r := by
  rw [shortestDigits]
  cases hsearch : (List.range 17).findSome? fun i =>
      (neighbourDigits (i + 1) (units r)).find? fun d => d.rank = r with
  | none =>
    -- seventeen digits would have done
    exact rank_seventeen hpos htop
  | some d =>
    -- what is found has been tried
    obtain ⟨i, -, hfound⟩ := List.exists_of_findSome?_eq_some hsearch
    have htried := List.find?_some hfound
    exact of_decide_eq_true htried

end Reckoner
