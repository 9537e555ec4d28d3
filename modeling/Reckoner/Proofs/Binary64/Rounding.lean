import Mathlib.Order.Monotone.Basic
import Reckoner.Proofs.Binary64.Finite

/-! # The chain of magnitudes and the rank nearest to a quotient

A rank `s · 2⁵² + m` has the magnitude `m · 2ˢ` when `m` is a significand: at most `2⁵³`, and at least
`2⁵²` unless the step is the least one. From this come the steps between neighbours, and where a
quotient is rounded to.

* **`units_significand`** — the magnitude of a rank that is given by a significand.
* **`exists_step`** — the step from one magnitude to the next.
* **`divNearestEven_bounds`** — a rounded quotient is off by a half at most.
* **`nearestRank_succ_cases`** — where the rank before the nearest one lies.
* **`midpoint_le_of_nearestRank`, `le_midpoint_nearestRank`** — a quotient lies between the midpoints
  around the rank that is nearest to it.
* **`nearestRank_eq_of_between`** — so a quotient strictly between the midpoints around a rank is
  rounded to that rank.
* **`nearestRank_eq_of_near`** — and so is one that is close enough to its magnitude.
* **`nearestRank_congr`** — equal quotients have the same nearest rank. -/

namespace Reckoner

/-- The next power of two is twice as large. -/
theorem twoPow_succ (n : Nat) : twoPow (n + 1) = 2 * twoPow n := Nat.pow_succ'

/-! ## Significands -/

/-- A **significand** of the step `2ˢ`. -/
structure Significand (s m : Nat) : Prop where
  /-- It has at most 53 binary digits, or carries to the next step. -/
  le : m ≤ twoPow 53
  /-- It has at least 53 binary digits, unless the step is the least one. -/
  normal : s = 0 ∨ twoPow 52 ≤ m

/-- **The magnitude of a rank** that is given by a significand. -/
theorem units_significand {s m : Nat} (h : Significand s m) :
    units (s * twoPow 52 + m) = m * twoPow s := by
  have hdouble : twoPow 53 = 2 * twoPow 52 := twoPow_succ 52
  have hpos := twoPow_pos 52
  -- a block of ranks begins after the significands below `2⁵²`
  have hblock : ∀ s t, t < twoPow 52 →
      units (s * twoPow 52 + (twoPow 52 + t)) = (twoPow 52 + t) * twoPow s := by
    intro s t ht
    have hrank : s * twoPow 52 + (twoPow 52 + t) = (s + 1) * twoPow 52 + t := by
      rw [Nat.succ_mul, Nat.add_assoc]
    have hmod : ((s + 1) * twoPow 52 + t) % twoPow 52 = t := by
      rw [Nat.mul_add_mod', Nat.mod_eq_of_lt ht]
    have hdiv : ((s + 1) * twoPow 52 + t) / twoPow 52 = s + 1 := by
      rw [Nat.mul_comm, Nat.mul_add_div hpos, Nat.div_eq_of_lt ht, Nat.add_zero]
    have hlarge : ¬ (s + 1) * twoPow 52 + t < twoPow 52 := by
      rw [Nat.succ_mul]
      omega
    rw [hrank, units, if_neg hlarge, hmod, hdiv, Nat.add_sub_cancel]
  by_cases hsmall : m < twoPow 52
  · obtain rfl : s = 0 := h.normal.resolve_right (Nat.not_le_of_lt hsmall)
    rw [Nat.zero_mul, Nat.zero_add, units, if_pos hsmall]
    exact (Nat.mul_one m).symm
  · by_cases hcarry : m = twoPow 53
    · -- the largest significand is the least one of the next step
      have hrank : s * twoPow 52 + m = (s + 1) * twoPow 52 + (twoPow 52 + 0) := by
        rw [hcarry, hdouble, Nat.succ_mul s]
        omega
      rw [hrank, hblock _ 0 hpos, hcarry, Nat.add_zero, twoPow_mul, twoPow_mul]
      congr 1
      omega
    · have hle := h.le
      obtain ⟨t, rfl⟩ := Nat.exists_eq_add_of_le (Nat.le_of_not_lt hsmall)
      exact hblock s t (by omega)

/-- The magnitude as a number of steps of a quotient. -/
theorem Significand.units_mul {s m r : Nat} (h : Significand s m) (hr : r = s * twoPow 52 + m)
    (d : Nat) : units r * d = m * (d * twoPow s) := by
  rw [hr, units_significand h, Nat.mul_assoc, Nat.mul_comm d]

/-- A significand has one below it, unless it is the least one of its step. -/
theorem Significand.pred {s m : Nat} (h : Significand s (m + 1))
    (inner : s = 0 ∨ m + 1 ≠ twoPow 52) : Significand s m := by
  refine ⟨Nat.le_of_succ_le h.le, ?_⟩
  by_cases hzero : s = 0
  · exact .inl hzero
  · have hlarge := h.normal.resolve_left hzero
    have hne := inner.resolve_left hzero
    exact .inr (by omega)

/-- Every rank is given by a significand that does not carry. -/
theorem exists_significand (r : Nat) :
    ∃ s m, r = s * twoPow 52 + m ∧ m < twoPow 53 ∧ (s = 0 ∨ twoPow 52 ≤ m) := by
  have hdouble : twoPow 53 = 2 * twoPow 52 := twoPow_succ 52
  by_cases hsmall : r < twoPow 52
  · exact ⟨0, r, by omega, by omega, .inl rfl⟩
  · have hmod := Nat.mod_lt r (twoPow_pos 52)
    have hdiv : 1 ≤ r / twoPow 52 := Nat.div_pos (Nat.le_of_not_lt hsmall) (twoPow_pos 52)
    refine ⟨r / twoPow 52 - 1, twoPow 52 + r % twoPow 52, ?_, by omega, .inr (Nat.le_add_right ..)⟩
    have hsplit := Nat.div_add_mod r (twoPow 52)
    obtain ⟨q, hq⟩ := Nat.exists_eq_add_of_le hdiv
    rw [hq, Nat.mul_comm, Nat.add_mul] at hsplit
    rw [hq, Nat.add_sub_cancel_left]
    omega

/-! ## Steps -/

/-- The next magnitude is one step away at least, and two at a carry. -/
theorem units_add_step_le {s m : Nat} (h : Significand s m) :
    units (s * twoPow 52 + m) + twoPow s ≤ units (s * twoPow 52 + m + 1) := by
  by_cases hcarry : m = twoPow 53
  · have hdouble : twoPow 53 = 2 * twoPow 52 := twoPow_succ 52
    have hrank : s * twoPow 52 + m + 1 = (s + 1) * twoPow 52 + (twoPow 52 + 1) := by
      rw [hcarry, hdouble, Nat.succ_mul s]
      omega
    have hpos := twoPow_pos 52
    have hnext : Significand (s + 1) (twoPow 52 + 1) := ⟨by omega, .inr (Nat.le_add_right ..)⟩
    rw [hrank, units_significand h, units_significand hnext, hcarry, hdouble, Nat.add_mul, Nat.one_mul,
      twoPow_succ s, Nat.mul_left_comm, ← Nat.mul_assoc 2]
    omega
  · have hle := h.le
    have hnext : Significand s (m + 1) := ⟨by omega, h.normal.imp_right Nat.le_succ_of_le⟩
    rw [Nat.add_assoc, units_significand h, units_significand hnext]
    exact Nat.le_of_eq (Nat.succ_mul m (twoPow s)).symm

/-- **The step from one magnitude to the next**: it does not become smaller, and is no less than the
magnitude divided by `2⁵³`. -/
theorem exists_step (r : Nat) :
    ∃ s, units (r + 1) = units r + twoPow s ∧ units (r + 1) ≤ twoPow 53 * twoPow s ∧
      units (r + 1) + twoPow s ≤ units (r + 2) := by
  obtain ⟨s, m, rfl, hm, hnormal⟩ := exists_significand r
  have hhere : Significand s m := ⟨Nat.le_of_lt hm, hnormal⟩
  have hnext : Significand s (m + 1) := ⟨hm, hnormal.imp_right Nat.le_succ_of_le⟩
  have hunits : units (s * twoPow 52 + m + 1) = (m + 1) * twoPow s := by
    rw [Nat.add_assoc, units_significand hnext]
  have hafter := units_add_step_le hnext
  rw [← Nat.add_assoc] at hafter
  refine ⟨s, ?_, ?_, hafter⟩
  · rw [hunits, units_significand hhere, Nat.succ_mul]
  · rw [hunits]
    exact Nat.mul_le_mul_right _ hm

/-- The next rank has more units. -/
theorem units_lt_succ (r : Nat) : units r < units (r + 1) := by
  obtain ⟨s, hstep, -⟩ := exists_step r
  have hpos := twoPow_pos s
  omega

/-- **Units grow with the rank**. -/
theorem units_strictMono : StrictMono units := strictMono_nat_of_lt_succ units_lt_succ

/-- Units never fall with the rank. -/
theorem units_mono {q r : Nat} (h : q ≤ r) : units q ≤ units r := units_strictMono.monotone h

/-- The magnitude that stands for infinity. -/
@[simp] theorem units_topRank : units topRank = twoPow 2098 := by
  have hblock : Significand 2046 (twoPow 52) := ⟨twoPow_le (by decide), .inr (Nat.le_refl _)⟩
  have hrank : topRank = 2046 * twoPow 52 + twoPow 52 := by decide
  rw [hrank, units_significand hblock, twoPow_mul]

/-! ## Rounding quotients -/

/-- **A rounded quotient is off by a half at most.** -/
theorem divNearestEven_bounds (n : Nat) {d : Nat} (hd : 0 < d) :
    2 * n ≤ 2 * (divNearestEven n d * d) + d ∧ 2 * (divNearestEven n d * d) ≤ 2 * n + d := by
  have hsplit := Nat.div_add_mod n d
  have hmod := Nat.mod_lt n hd
  rw [Nat.mul_comm] at hsplit
  simp only [divNearestEven]
  split
  · omega
  · split
    · rw [Nat.succ_mul (n / d)]
      omega
    · -- at a half, both neighbours are equally near
      rcases Nat.mod_two_eq_zero_or_one (n / d) with heven | hodd
      · rw [heven, Nat.add_zero]
        omega
      · rw [hodd, Nat.succ_mul (n / d)]
        omega

/-- A common factor does not change a rounded quotient. -/
@[simp] theorem divNearestEven_mul_right (n d : Nat) {k : Nat} (hk : 0 < k) :
    divNearestEven (n * k) (d * k) = divNearestEven n d := by
  have hdouble : 2 * (n % d * k) = 2 * (n % d) * k := (Nat.mul_assoc ..).symm
  simp only [divNearestEven, Nat.mul_div_mul_right _ _ hk, Nat.mul_mod_mul_right, hdouble,
    Nat.mul_lt_mul_right hk]

/-- Between two whole numbers, a rounded quotient stays between them. -/
theorem divNearestEven_mem {n d a b : Nat} (hlow : a ≤ n / d) (hhigh : n / d < b) :
    a ≤ divNearestEven n d ∧ divNearestEven n d ≤ b := by
  have hle := divNearestEven_le n d
  have hge : n / d ≤ divNearestEven n d := by
    simp only [divNearestEven]
    split
    · exact Nat.le_refl _
    · split
      · exact Nat.le_succ _
      · exact Nat.le_add_right ..
  omega

/-! ## The nearest rank -/

/-- The significand of a quotient: where its step is not the least one, the quotient has no fewer
binary digits. -/
theorem exists_significand_nearestRank (n : Nat) {d : Nat} (hd : 0 < d) :
    ∃ s m, nearestRank n d = s * twoPow 52 + m ∧ Significand s m ∧
      (s = 0 ∨ twoPow 52 * (d * twoPow s) ≤ n) ∧ m = divNearestEven n (d * twoPow s) := by
  generalize hs : (n / d).log2 - 52 = s
  have hstep : 0 < d * twoPow s := Nat.mul_pos hd (twoPow_pos s)
  -- the quotient has at most `53 + s` binary digits
  have hhigh : n / (d * twoPow s) < twoPow 53 := by
    rw [← Nat.div_div_eq_div_mul, Nat.div_lt_iff_lt_mul (twoPow_pos s), twoPow_mul]
    have hlog : n / d < twoPow ((n / d).log2 + 1) := Nat.lt_log2_self
    exact Nat.lt_of_lt_of_le hlog (twoPow_le (by omega))
  have hlow : s = 0 ∨ twoPow 52 ≤ n / (d * twoPow s) := by
    by_cases hzero : s = 0
    · exact .inl hzero
    · refine .inr ?_
      have hquotient : n / d ≠ 0 := by
        intro h
        rw [h] at hs
        exact hzero hs.symm
      have hlog : twoPow (n / d).log2 ≤ n / d := Nat.log2_self_le hquotient
      rw [← Nat.div_div_eq_div_mul, Nat.le_div_iff_mul_le (twoPow_pos s), twoPow_mul]
      exact Nat.le_trans (twoPow_le (by omega)) hlog
  refine ⟨s, _, by rw [nearestRank, hs], ?_, ?_, rfl⟩
  · exact ⟨(divNearestEven_mem (Nat.zero_le _) hhigh).2,
      hlow.imp_right fun h => (divNearestEven_mem h hhigh).1⟩
  · exact hlow.imp_right (Nat.le_div_iff_mul_le hstep).mp

/-- A quotient is not above the midpoint over its nearest rank. -/
theorem le_midpoint_nearestRank (n : Nat) {d : Nat} (hd : 0 < d) :
    2 * n ≤ (units (nearestRank n d) + units (nearestRank n d + 1)) * d := by
  obtain ⟨s, m, hrank, hm, -, hround⟩ := exists_significand_nearestRank n hd
  have hnear := (divNearestEven_bounds n (Nat.mul_pos hd (twoPow_pos s))).1
  have hunits := hm.units_mul hrank d
  have hnext : (units (nearestRank n d) + twoPow s) * d ≤ units (nearestRank n d + 1) * d := by
    rw [hrank]
    exact Nat.mul_le_mul_right d (units_add_step_le hm)
  rw [← hround] at hnear
  rw [Nat.add_mul, Nat.mul_comm (twoPow s)] at hnext
  rw [Nat.add_mul]
  omega

/-- The rank before the nearest one: it is one step of the quotient away, unless the nearest rank is the
first one of its step. Then the quotient is not below the magnitude. -/
theorem nearestRank_succ_cases {n d r : Nat} (hd : 0 < d) (h : nearestRank n d = r + 1) :
    (∃ s m, r + 1 = s * twoPow 52 + (m + 1) ∧ m + 1 = divNearestEven n (d * twoPow s) ∧
      units r * d = m * (d * twoPow s) ∧ units (r + 1) * d = (m + 1) * (d * twoPow s)) ∨
    ∃ s, r + 1 = s * twoPow 52 + twoPow 52 ∧ units (r + 1) * d ≤ n := by
  obtain ⟨s, m, hrank, hm, hlow, hround⟩ := exists_significand_nearestRank n hd
  rw [h] at hrank
  have hunits := hm.units_mul hrank d
  by_cases hinner : s = 0 ∨ m ≠ twoPow 52
  · have hpositive : m ≠ 0 := by
      rintro rfl
      rcases hm.normal with rfl | hlarge
      · omega
      · exact absurd hlarge (Nat.not_le_of_lt (twoPow_pos 52))
    obtain ⟨m, rfl⟩ := Nat.exists_eq_succ_of_ne_zero hpositive
    have hbelow : r = s * twoPow 52 + m := by omega
    exact .inl ⟨s, m, hrank, hround, (hm.pred hinner).units_mul hbelow d, hunits⟩
  · -- the step below is smaller, but no quotient is rounded up from there
    obtain ⟨hstep, hleast⟩ := not_or.mp hinner
    rw [Decidable.not_not.mp hleast] at hrank hunits
    exact .inr ⟨s, hrank, Nat.le_trans (Nat.le_of_eq hunits) (hlow.resolve_left hstep)⟩

/-- A quotient is not below the midpoint under its nearest rank. -/
theorem midpoint_le_of_nearestRank {n d r : Nat} (hd : 0 < d) (h : nearestRank n d = r + 1) :
    (units r + units (r + 1)) * d ≤ 2 * n := by
  rcases nearestRank_succ_cases hd h with ⟨s, m, -, hround, hbelow, hunits⟩ | ⟨-, -, hquotient⟩
  · have hnear := (divNearestEven_bounds n (Nat.mul_pos hd (twoPow_pos s))).2
    rw [← hround, Nat.succ_mul m] at hnear
    rw [Nat.succ_mul m] at hunits
    rw [Nat.add_mul]
    omega
  · have hbelow : units r * d ≤ units (r + 1) * d :=
      Nat.mul_le_mul_right d (Nat.le_of_lt (units_lt_succ r))
    rw [Nat.add_mul]
    omega

/-- **A quotient strictly between the midpoints around a rank** is rounded to that rank. -/
theorem nearestRank_eq_of_between {n d r : Nat} (hd : 0 < d)
    (hlow : ∀ q, r = q + 1 → (units q + units r) * d < 2 * n)
    (hhigh : 2 * n < (units r + units (r + 1)) * d) : nearestRank n d = r := by
  rcases Nat.lt_trichotomy (nearestRank n d) r with hless | heq | hgreater
  · obtain ⟨q, rfl⟩ := Nat.exists_eq_add_of_lt hless
    have hmid := le_midpoint_nearestRank n hd
    have hmono : (units (nearestRank n d) + units (nearestRank n d + 1)) * d ≤
        (units (nearestRank n d + q) + units (nearestRank n d + q + 1)) * d :=
      Nat.mul_le_mul_right d (Nat.add_le_add (units_mono (by omega)) (units_mono (by omega)))
    have hquotient := hlow _ rfl
    omega
  · exact heq
  · obtain ⟨q, hq⟩ := Nat.exists_eq_add_of_lt hgreater
    have hmid := midpoint_le_of_nearestRank hd hq
    have hmono : (units r + units (r + 1)) * d ≤ (units (r + q) + units (r + q + 1)) * d :=
      Nat.mul_le_mul_right d (Nat.add_le_add (units_mono (by omega)) (units_mono (by omega)))
    omega

/-- **A quotient that misses a magnitude** by less than half of the `2⁵³`-th part of it is rounded to
that magnitude; `e / d` is twice the distance at most. -/
theorem nearestRank_eq_of_near {n d e r : Nat} (hd : 0 < d)
    (hnear : twoPow 53 * e < units (r + 1) * d) (hlow : 2 * (units (r + 1) * d) ≤ 2 * n + e)
    (hhigh : 2 * n ≤ 2 * (units (r + 1) * d) + e) : nearestRank n d = r + 1 := by
  obtain ⟨s, hstep, hlarge, hnext⟩ := exists_step r
  -- the distance is less than half of the step below, and the step above is no less
  have hless : e < twoPow s * d := by
    have hscaled : twoPow 53 * e < twoPow 53 * (twoPow s * d) := by
      rw [← Nat.mul_assoc]
      exact Nat.lt_of_lt_of_le hnear (Nat.mul_le_mul_right d hlarge)
    exact Nat.lt_of_mul_lt_mul_left hscaled
  have hbelow : units (r + 1) * d = units r * d + twoPow s * d := by rw [hstep, Nat.add_mul]
  have habove : units (r + 1) * d + twoPow s * d ≤ units (r + 1 + 1) * d := by
    rw [← Nat.add_mul]
    exact Nat.mul_le_mul_right d hnext
  refine nearestRank_eq_of_between hd ?_ ?_
  · intro q hq
    obtain rfl : r = q := Nat.succ.inj hq
    rw [Nat.add_mul]
    omega
  · rw [Nat.add_mul]
    omega

/-- **Equal quotients have the same nearest rank.** -/
theorem nearestRank_congr {n d n' d' : Nat} (hd : 0 < d) (hd' : 0 < d') (h : n * d' = n' * d) :
    nearestRank n d = nearestRank n' d' := by
  have hscale : ∀ n d : Nat, ∀ {k : Nat}, 0 < k → nearestRank (n * k) (d * k) = nearestRank n d := by
    intro n d k hk
    have hstep : ∀ s, d * k * twoPow s = d * twoPow s * k := fun s => Nat.mul_right_comm d k _
    simp only [nearestRank, Nat.mul_div_mul_right _ _ hk, hstep, divNearestEven_mul_right _ _ hk]
  rw [← hscale n d hd', h, Nat.mul_comm d d', hscale n' d' hd]

/-- What is at least as large as infinity stands for it. -/
theorem topRank_le_nearestRank {n d : Nat} (hd : 0 < d) (h : units topRank * d ≤ n) :
    topRank ≤ nearestRank n d := by
  by_cases hbelow : nearestRank n d < topRank
  · have hmid := le_midpoint_nearestRank n hd
    have hless : units (nearestRank n d) * d < units topRank * d :=
      Nat.mul_lt_mul_of_pos_right
        (Nat.lt_of_lt_of_le (units_lt_succ _) (units_mono hbelow)) hd
    have hle : units (nearestRank n d + 1) * d ≤ units topRank * d :=
      Nat.mul_le_mul_right d (units_mono hbelow)
    rw [Nat.add_mul] at hmid
    omega
  · exact Nat.le_of_not_lt hbelow

/-- What is below half a unit is rounded to zero. -/
@[simp] theorem nearestRank_eq_zero {n d : Nat} (h : 2 * n < d) : nearestRank n d = 0 := by
  have hd : 0 < d := Nat.zero_lt_of_lt h
  refine nearestRank_eq_of_between hd (fun q hq => absurd hq.symm (Nat.succ_ne_zero q)) ?_
  have hunits : units 0 + units 1 = 1 := by decide
  rw [hunits, Nat.one_mul]
  exact h

end Reckoner
