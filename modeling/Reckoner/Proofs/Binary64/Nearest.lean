import Reckoner.Binary64.Arithmetic
import Reckoner.Proofs.Binary64.Rounding

/-! # The number nearest to an exact value

When a whole number of units is rounded, the result is the number nearest to it; of two that are equally
near it is the one with an even significand, and from half a step beyond the largest finite number on it
is infinity. This is said here without the rounding, and it is true of one number only, the one that
rounding yields. So rounding keeps the order of values.

* **`nearestRank_closest`** — any other magnitude is farther away, or as far and the rank is even.
* **`topRank_le_nearestRank_iff`** — which values are too large to be finite.
* **`Binary64.IsNearest`** — what it means that a number is nearest to an exact value.
* **`Binary64.isNearest_iff`** — rounding yields that number, and there is no other.
* **`Binary64.lt_iff_units`, `Binary64.le_iff_units`** — comparisons of finite numbers compare exact values.
* **`Binary64.ofNat_le_ofNat`** — rounding keeps the order. -/

namespace Reckoner

/-! ## Ties -/

/-- The significands of a step begin with an even one, and follow one another as the ranks do. -/
theorem rank_mod_two (s m : Nat) : (s * twoPow 52 + m) % 2 = m % 2 := by
  have hdouble : twoPow 52 = 2 * twoPow 51 := twoPow_succ 51
  rw [hdouble, Nat.mul_left_comm, Nat.mul_add_mod]

/-- At a half, a quotient is rounded to an even number. -/
theorem divNearestEven_even {n d : Nat} (hd : 0 < d)
    (half : 2 * n = 2 * (divNearestEven n d * d) + d ∨ 2 * n + d = 2 * (divNearestEven n d * d)) :
    divNearestEven n d % 2 = 0 := by
  have hsplit := Nat.div_add_mod n d
  have hmod := Nat.mod_lt n hd
  rw [Nat.mul_comm] at hsplit
  have hcases : 2 * (n % d) < d ∧ divNearestEven n d = n / d ∨
      d < 2 * (n % d) ∧ divNearestEven n d = n / d + 1 ∨
      2 * (n % d) = d ∧ divNearestEven n d = n / d + n / d % 2 := by
    simp only [divNearestEven]
    split
    · exact .inl ⟨by assumption, rfl⟩
    · split
      · exact .inr (.inl ⟨by assumption, rfl⟩)
      · exact .inr (.inr ⟨by omega, rfl⟩)
  rcases hcases with ⟨hlow, hround⟩ | ⟨hhigh, hround⟩ | ⟨-, hround⟩
  · rw [hround] at half
    omega
  · rw [hround, Nat.succ_mul (n / d)] at half
    omega
  · omega

/-- A quotient in the middle between its nearest rank and the next one: the rank is even. -/
theorem nearestRank_even_of_above {n d : Nat} (hd : 0 < d)
    (middle : 2 * n = (units (nearestRank n d) + units (nearestRank n d + 1)) * d) :
    nearestRank n d % 2 = 0 := by
  obtain ⟨s, m, hrank, hm, -, hround⟩ := exists_significand_nearestRank n hd
  have hstep := Nat.mul_pos hd (twoPow_pos s)
  have hnear := (divNearestEven_bounds n hstep).1
  have hunits := hm.units_mul hrank d
  have hnext : (units (nearestRank n d) + twoPow s) * d ≤ units (nearestRank n d + 1) * d := by
    rw [hrank]
    exact Nat.mul_le_mul_right d (units_add_step_le hm)
  rw [Nat.add_mul, Nat.mul_comm (twoPow s)] at hnext
  rw [Nat.add_mul] at middle
  -- the quotient is half a step above, so the step does not grow here
  have hhalf : 2 * n = 2 * (divNearestEven n (d * twoPow s) * (d * twoPow s)) + d * twoPow s := by
    rw [← hround] at hnear ⊢
    omega
  rw [hrank, rank_mod_two, hround]
  exact divNearestEven_even hstep (.inl hhalf)

/-- A quotient in the middle between its nearest rank and the one before: the rank is even. -/
theorem nearestRank_even_of_below {n d r : Nat} (hd : 0 < d) (h : nearestRank n d = r + 1)
    (middle : 2 * n = (units r + units (r + 1)) * d) : nearestRank n d % 2 = 0 := by
  rcases nearestRank_succ_cases hd h with ⟨s, m, hrank, hround, hbelow, hunits⟩ | ⟨s, hrank, -⟩
  · have hhalf : 2 * n + d * twoPow s = 2 * (divNearestEven n (d * twoPow s) * (d * twoPow s)) := by
      rw [← hround, Nat.succ_mul m]
      rw [Nat.add_mul, hbelow, hunits, Nat.succ_mul m] at middle
      omega
    rw [h, hrank, rank_mod_two, hround]
    exact divNearestEven_even (Nat.mul_pos hd (twoPow_pos s)) (.inr hhalf)
  · rw [h, hrank, rank_mod_two]
    decide

/-! ## The nearest rank of a whole number of units -/

/-- **Any other magnitude is farther away** than that of the nearest rank, or it is as far away and the
nearest rank is even. -/
theorem nearestRank_closest {u q : Nat} (hne : q ≠ nearestRank u 1) :
    ((units (nearestRank u 1) : Int) - u).natAbs < ((units q : Int) - u).natAbs ∨
      ((units (nearestRank u 1) : Int) - u).natAbs = ((units q : Int) - u).natAbs ∧
        nearestRank u 1 % 2 = 0 := by
  rcases Nat.lt_or_gt_of_ne hne with hless | hgreater
  · obtain ⟨k, hk⟩ := Nat.exists_eq_add_of_lt hless
    have hmid := midpoint_le_of_nearestRank Nat.one_pos hk
    have htie := nearestRank_even_of_below Nat.one_pos hk
    have hmono : units q ≤ units (q + k) := units_mono (Nat.le_add_right q k)
    have hstep := units_lt_succ (q + k)
    rw [Nat.mul_one] at hmid htie
    rw [hk] at htie ⊢
    omega
  · have hmid := le_midpoint_nearestRank u Nat.one_pos
    have htie := nearestRank_even_of_above (n := u) Nat.one_pos
    have hmono : units (nearestRank u 1 + 1) ≤ units q := units_mono hgreater
    have hstep := units_lt_succ (nearestRank u 1)
    rw [Nat.mul_one] at hmid htie
    omega

/-- **No other rank has this property**: two of them would be even, and a magnitude between the two would be
closer. -/
theorem eq_nearestRank_of_closest {u r : Nat}
    (closest : r ≠ nearestRank u 1 →
      ((units r : Int) - u).natAbs < ((units (nearestRank u 1) : Int) - u).natAbs ∨
        ((units r : Int) - u).natAbs = ((units (nearestRank u 1) : Int) - u).natAbs ∧ r % 2 = 0) :
    r = nearestRank u 1 := by
  by_contra hne
  have hfirst := closest hne
  have hsecond := nearestRank_closest hne
  rcases Nat.lt_or_gt_of_ne hne with hless | hgreater
  · have hinner : r + 1 < nearestRank u 1 := by omega
    have hlow := units_lt_succ r
    have hhigh := units_strictMono hinner
    have hbetween := nearestRank_closest (Nat.ne_of_lt hinner)
    omega
  · have hinner : nearestRank u 1 + 1 < r := by omega
    have hlow := units_lt_succ (nearestRank u 1)
    have hhigh := units_strictMono hinner
    have hbetween := nearestRank_closest (u := u) (q := nearestRank u 1 + 1) (by omega)
    omega

/-- **Rounding keeps the order.** -/
theorem nearestRank_mono {u v : Nat} (h : u ≤ v) : nearestRank u 1 ≤ nearestRank v 1 := by
  by_contra hless
  obtain ⟨k, hk⟩ := Nat.exists_eq_add_of_lt (Nat.lt_of_not_le hless)
  have hlow := midpoint_le_of_nearestRank Nat.one_pos hk
  have hhigh := le_midpoint_nearestRank v Nat.one_pos
  have hmono : units (nearestRank v 1) ≤ units (nearestRank v 1 + k) := units_mono (by omega)
  have hmono' : units (nearestRank v 1 + 1) ≤ units (nearestRank v 1 + k + 1) := units_mono (by omega)
  -- both would lie in the middle of the same two magnitudes
  obtain rfl : u = v := by omega
  omega

/-- The least exact value that is rounded to infinity: `2¹⁰²⁴ - 2⁹⁷⁰`, which is half a step more than the
largest finite number. -/
def overflowUnits : Nat := twoPow 2098 - twoPow 2044

/-- Halfway between the largest finite magnitude and the next one would be. -/
theorem midpoint_topRank : units (topRank - 1) + units topRank = 2 * overflowUnits := by
  decide +kernel

/-- **What is too large to be finite.** -/
@[simp] theorem topRank_le_nearestRank_iff {u : Nat} : topRank ≤ nearestRank u 1 ↔ overflowUnits ≤ u := by
  have hmiddle := midpoint_topRank
  constructor
  · intro htop
    obtain ⟨r, hr⟩ : ∃ r, nearestRank u 1 = r + 1 :=
      Nat.exists_eq_succ_of_ne_zero (Nat.ne_of_gt (Nat.lt_of_lt_of_le (by decide) htop))
    have hmid := midpoint_le_of_nearestRank Nat.one_pos hr
    have hmono : units (topRank - 1) ≤ units r := units_mono (by omega)
    have hmono' : units topRank ≤ units (r + 1) := units_mono (by omega)
    omega
  · intro hlarge
    by_contra hless
    have hmid := le_midpoint_nearestRank u Nat.one_pos
    have htie := nearestRank_even_of_above (n := u) Nat.one_pos
    rw [Nat.mul_one] at hmid htie
    rcases Nat.lt_or_eq_of_le (Nat.le_sub_one_of_lt (Nat.lt_of_not_le hless)) with hbelow | hlast
    · have hmono : units (nearestRank u 1) < units (topRank - 1) := units_strictMono hbelow
      have hmono' : units (nearestRank u 1 + 1) ≤ units topRank := units_mono (by omega)
      omega
    · -- in the middle between the largest finite number and infinity, the former is odd
      have hodd : (topRank - 1) % 2 = 1 := by decide
      have hnext : nearestRank u 1 + 1 = topRank := by omega
      rw [hnext, hlast] at hmid htie
      omega

namespace Binary64

/-! ## The nearest number -/

/-- The number is **even**: the last digit of its significand is zero. Significands follow one another as
the ranks do (`rank_mod_two`). -/
def IsEven : Binary64 → Prop
  | .nan _ => False
  | .number _ r _ => r % 2 = 0

/-- The number is **nearest to an exact value** of `u` units. -/
structure IsNearest (x : Binary64) (u : Nat) : Prop where
  /-- What is not below zero has no sign. -/
  isNegative_eq : x.isNegative = false
  /-- A finite number with another exact value is farther away, or it is as far away and the significand
  of the nearest one is even. -/
  closest : u < overflowUnits → ∃ w, x.units? = some w ∧
    ∀ (y : Binary64) (v : Int), y.units? = some v → v ≠ w →
      (w - u).natAbs < (v - u).natAbs ∨ (w - u).natAbs = (v - u).natAbs ∧ x.IsEven
  /-- What is too large is infinite. -/
  overflow : overflowUnits ≤ u → x = infinity false

/-- An exact value is that of a rank, or its opposite. -/
theorem exists_rank_of_units? {x : Binary64} {v : Int} (h : x.units? = some v) :
    ∃ s r hr, x = number s r hr ∧ r < topRank ∧ v = if s then -(units r : Int) else units r := by
  cases x with
  | nan s => cases h
  | number s r hr =>
    have hlt : r < topRank := by
      by_contra htop
      rw [units?, if_neg htop] at h
      cases h
    rw [units?_number hlt] at h
    exact ⟨s, r, hr, rfl, hlt, (Option.some.inj h).symm⟩

/-- Rounding yields the nearest number. -/
theorem isNearest_ofRatio (u : Nat) : (ofRatio false u 1).IsNearest u := by
  refine ⟨rfl, fun hsmall => ?_, fun hlarge => ?_⟩
  · have hlt : nearestRank u 1 < topRank :=
      Nat.lt_of_not_le (mt topRank_le_nearestRank_iff.mp (Nat.not_le_of_lt hsmall))
    rw [ofRatio, ofRank_rank _ _ (Nat.le_of_lt hlt)]
    refine ⟨_, units?_number hlt, fun y v hv hne => ?_⟩
    obtain ⟨s, q, -, -, -, rfl⟩ := exists_rank_of_units? hv
    cases s with
    | false => exact nearestRank_closest fun h => hne (congrArg (fun q => (units q : Int)) h)
    | true =>
      -- zero is closer than what is below it
      have hbelow : -(units q : Int) ≠ units (nearestRank u 1) := hne
      have hzero : units 0 = 0 := by decide
      have hcloser := nearestRank_closest (u := u) (q := 0)
      rw [hzero] at hcloser
      rw [if_pos rfl, if_neg Bool.false_ne_true, IsEven]
      by_cases hnearest : nearestRank u 1 = 0
      · rw [hnearest, hzero] at hbelow ⊢
        omega
      · have hcloser := hcloser (Ne.symm hnearest)
        omega
  · rw [ofRatio, ofRank]
    congr 1
    exact Nat.min_eq_right (topRank_le_nearestRank_iff.mpr hlarge)

/-- **There is one nearest number.** -/
theorem IsNearest.eq_ofRatio {x : Binary64} {u : Nat} (h : x.IsNearest u) :
    x = ofRatio false u 1 := by
  by_cases hlarge : overflowUnits ≤ u
  · rw [h.overflow hlarge, (isNearest_ofRatio u).overflow hlarge]
  · have hlt : nearestRank u 1 < topRank :=
      Nat.lt_of_not_le (mt topRank_le_nearestRank_iff.mp hlarge)
    have hvalue := ofRank_rank false _ (Nat.le_of_lt hlt)
    obtain ⟨w, hw, hclosest⟩ := h.closest (Nat.lt_of_not_le hlarge)
    obtain ⟨s, r, hr, rfl, -, rfl⟩ := exists_rank_of_units? hw
    obtain rfl : s = false := h.isNegative_eq
    have hother := hclosest (ofRank false (nearestRank u 1)) _ (by rw [hvalue, units?_number hlt])
    rw [if_neg Bool.false_ne_true, if_neg Bool.false_ne_true, IsEven] at hother
    obtain rfl : r = nearestRank u 1 := eq_nearestRank_of_closest fun hne =>
      hother fun h => hne (units_strictMono.injective (Int.ofNat.inj h.symm))
    exact hvalue.symm

/-- **To be nearest is to be what rounding gives**. -/
theorem isNearest_iff {x : Binary64} {u : Nat} : x.IsNearest u ↔ x = ofRatio false u 1 :=
  ⟨IsNearest.eq_ofRatio, fun h => h ▸ isNearest_ofRatio u⟩

/-! ## The order of numbers -/

/-- A number is **less** than another one if the comparison says so. -/
instance : LT Binary64 := ⟨fun x y => x.lt y = true⟩

/-- A number is **at most** another one if it is less or equal by the comparisons. NaN is neither below
nor above anything. -/
instance : LE Binary64 := ⟨fun x y => (x.lt y || x.eqv y) = true⟩

instance : DecidableLT Binary64 := fun x y => inferInstanceAs (Decidable (x.lt y = true))

instance : DecidableLE Binary64 := fun x y => inferInstanceAs (Decidable ((x.lt y || x.eqv y) = true))

section Order

variable {x y : Binary64} {a b : Int}

/-- What can be compared has a place on the number line. -/
theorem lt_iff : x < y ↔ ∃ a b, x.place = some a ∧ y.place = some b ∧ a < b := by
  show x.lt y = true ↔ _
  rw [Binary64.lt]
  cases x.place <;> cases y.place <;> simp

/-- Numbers are in order when their places are. -/
theorem le_iff : x ≤ y ↔ ∃ a b, x.place = some a ∧ y.place = some b ∧ a ≤ b := by
  show (x.lt y || x.eqv y) = true ↔ _
  rw [Binary64.lt, Binary64.eqv]
  cases x.place <;> cases y.place <;> simp [Int.le_iff_lt_or_eq]

/-- The strict order of numbers with known places. -/
theorem lt_iff_place (hx : x.place = some a) (hy : y.place = some b) : x < y ↔ a < b := by
  simp [lt_iff, hx, hy]

/-- The order of numbers with known places. -/
theorem le_iff_place (hx : x.place = some a) (hy : y.place = some b) : x ≤ y ↔ a ≤ b := by
  simp [le_iff, hx, hy]

/-- What is below a number is below all that follow it. -/
theorem lt_of_lt_of_le {z : Binary64} (h : x < y) (h' : y ≤ z) : x < z := by
  obtain ⟨a, b, hx, hy, hab⟩ := lt_iff.mp h
  obtain ⟨b', c, hy', hz, hbc⟩ := le_iff.mp h'
  obtain rfl : b = b' := Option.some.inj (hy.symm.trans hy')
  exact lt_iff.mpr ⟨a, c, hx, hz, Int.lt_of_lt_of_le hab hbc⟩

/-- Of two numbers that are not NaN, one is less than the other or not above it. -/
theorem lt_iff_not_le (hx : x.isNaN = false) (hy : y.isNaN = false) : x < y ↔ ¬ y ≤ x := by
  cases x with
  | nan s => cases hx
  | number s r hr =>
    cases y with
    | nan t => cases hy
    | number t q hq => rw [lt_iff_place rfl rfl, le_iff_place rfl rfl, Int.not_le]

/-- Ranks with a sign are in the order of their magnitudes with that sign. -/
theorem signed_units_lt_iff (s t : Bool) (r q : Nat) :
    ((if s then -(units r : Int) else units r) < if t then -(units q : Int) else units q) ↔
      (if s then -(r : Int) else r) < if t then -(q : Int) else q := by
  have hless := units_strictMono.lt_iff_lt (a := r) (b := q)
  have hgreater := units_strictMono.lt_iff_lt (a := q) (b := r)
  have hleft := units_strictMono.lt_iff_lt (a := 0) (b := r)
  have hright := units_strictMono.lt_iff_lt (a := 0) (b := q)
  have hzero : units 0 = 0 := by decide
  cases s <;> cases t <;> simp only [if_true, if_false, Bool.false_eq_true] <;> omega

/-- **Comparisons of finite numbers compare exact values.** -/
theorem lt_iff_units (hx : x.units? = some a) (hy : y.units? = some b) : x < y ↔ a < b := by
  obtain ⟨s, r, hr, rfl, -, rfl⟩ := exists_rank_of_units? hx
  obtain ⟨t, q, hq, rfl, -, rfl⟩ := exists_rank_of_units? hy
  rw [lt_iff_place rfl rfl, signed_units_lt_iff]

/-- Finite numbers are in order when their units are. -/
theorem le_iff_units (hx : x.units? = some a) (hy : y.units? = some b) : x ≤ y ↔ a ≤ b := by
  obtain ⟨s, r, hr, rfl, -, -⟩ := exists_rank_of_units? hx
  obtain ⟨t, q, hq, rfl, -, -⟩ := exists_rank_of_units? hy
  rw [← Int.not_lt, ← lt_iff_units hy hx, lt_iff_not_le rfl rfl, not_not]

/-- Truncation keeps the order. -/
theorem truncate_mono (hx : x.truncate? = some a) (hy : y.truncate? = some b) (h : x ≤ y) :
    a ≤ b := by
  rw [truncate?, Option.map_eq_some_iff] at hx hy
  obtain ⟨u, hu, rfl⟩ := hx
  obtain ⟨v, hv, rfl⟩ := hy
  exact Int.tdiv_le_tdiv (Int.natCast_pos.mpr (twoPow_pos 1074)) ((le_iff_units hu hv).mp h)

end Order

/-- Every number but NaN is at most infinity. -/
theorem le_infinity {x : Binary64} (h : x.isNaN = false) : x ≤ infinity false := by
  cases x with
  | nan s => cases h
  | number s r hr =>
    rw [le_iff_place rfl rfl, if_neg Bool.false_ne_true]
    split <;> omega

/-- No finite number is at least infinity. -/
theorem not_infinity_le {x : Binary64} (h : x.isFinite = true) : ¬ infinity false ≤ x := by
  cases x with
  | nan s => cases h
  | number s r hr =>
    have hlt : r < topRank := of_decide_eq_true h
    rw [le_iff_place rfl rfl, if_neg Bool.false_ne_true]
    split <;> omega

/-- **Rounding keeps the order** of whole numbers. -/
theorem ofNat_le_ofNat {m n : Nat} (h : m ≤ n) : Binary64.ofNat m ≤ Binary64.ofNat n := by
  have hranks := nearestRank_mono (Nat.mul_le_mul_right unitsPerOne h)
  rw [ofNat, ofNat, ofRatio, ofRatio, ofRank, ofRank, le_iff_place rfl rfl,
    if_neg Bool.false_ne_true, if_neg Bool.false_ne_true]
  omega

end Binary64

end Reckoner
