import Reckoner.Elementary.Library
import Reckoner.Proofs.Binary64.Rounding
import Reckoner.Proofs.Symbol.NaN

/-! # The numerical library and NaN

What is known of numerical libraries holds of the one of this program. Its functions are made of
operations that absorb NaN, and so is its sum, in whatever order the numbers are added.

* **`isNaN_foldl`** — operations that absorb NaN, repeated over a list.
* **`isNaN_pairwiseSum`** — sums in pairwise order.
* **`lawful_standardNumerics`** — the library is lawful. -/

namespace Reckoner

open Binary64

/-! ## Lists with a NaN -/

section Lists

variable {xs : List Binary64}

/-- An operation that absorbs NaN, repeated over a list, finds a NaN at its beginning or later. -/
@[simp] theorem isNaN_foldl {f : Binary64 → Binary64 → Binary64} (hf : Absorbs f) {a : Binary64}
    (h : a.isNaN = true ∨ xs.any isNaN = true) : (xs.foldl f a).isNaN = true := by
  induction xs generalizing a with
  | nil => exact h.resolve_right Bool.false_ne_true
  | cons x xs ih =>
    rw [List.any_cons, Bool.or_eq_true] at h
    refine ih ?_
    rcases h with ha | hx | hxs
    · exact .inl (hf a x (.inl ha))
    · exact .inl (hf a x (.inr hx))
    · exact .inr hxs

/-- A sum in order is one. -/
@[simp] theorem isNaN_sumInOrder (h : xs.any isNaN = true) : (sumInOrder xs).isNaN = true :=
  isNaN_foldl absorbs_add (.inr h)

/-! ## Rows -/

/-- A NaN in either of two rows of the same length is in their sum. -/
@[simp] theorem any_isNaN_addColumns {acc row : List Binary64} (hlength : acc.length = row.length)
    (h : acc.any isNaN = true ∨ row.any isNaN = true) : (addColumns acc row).any isNaN = true := by
  induction acc generalizing row with
  | nil =>
    obtain rfl : row = [] := List.eq_nil_of_length_eq_zero hlength.symm
    exact h.elim id id
  | cons a acc ih =>
    cases row with
    | nil => cases hlength
    | cons b row =>
      rw [addColumns, List.zipWith_cons_cons, List.any_cons, Bool.or_eq_true]
      rw [List.any_cons, List.any_cons, Bool.or_eq_true, Bool.or_eq_true] at h
      have hrest : acc.any isNaN = true ∨ row.any isNaN = true →
          (List.zipWith (· + ·) acc row).any isNaN = true := ih (Nat.succ.inj hlength)
      rcases h with (ha | hacc) | (hb | hrow)
      · exact .inl (absorbs_add a b (.inl ha))
      · exact .inr (hrest (.inl hacc))
      · exact .inl (absorbs_add a b (.inr hb))
      · exact .inr (hrest (.inr hrow))

/-- The sum of two rows is as long as they are. -/
@[simp] theorem length_addColumns {acc row : List Binary64} (hlength : acc.length = row.length) :
    (addColumns acc row).length = row.length := by
  rw [addColumns, List.length_zipWith, hlength, Nat.min_self]

/-- The running sums over rows of eight are eight, and a NaN in any of the rows is in them. -/
theorem foldl_addColumns {rows : List (List Binary64)} (height : ∀ row ∈ rows, row.length = 8)
    {acc : List Binary64} (hacc : acc.length = 8) :
    (rows.foldl addColumns acc).length = 8 ∧
      (acc.any isNaN = true ∨ rows.any (·.any isNaN) = true →
        (rows.foldl addColumns acc).any isNaN = true) := by
  induction rows generalizing acc with
  | nil => exact ⟨hacc, fun h => h.resolve_right Bool.false_ne_true⟩
  | cons row rows ih =>
    have hrow : row.length = 8 := height row (List.mem_cons_self ..)
    have hlength : acc.length = row.length := hacc.trans hrow.symm
    obtain ⟨height', hnan⟩ := ih (fun r hr => height r (List.mem_cons_of_mem row hr))
      ((length_addColumns hlength).trans hrow)
    refine ⟨height', fun h => hnan ?_⟩
    rw [List.any_cons, Bool.or_eq_true] at h
    rcases h with hacc | hrow | hrows
    · exact .inl (any_isNaN_addColumns hlength (.inl hacc))
    · exact .inl (any_isNaN_addColumns hlength (.inr hrow))
    · exact .inr hrows

/-- All rows have eight numbers, and no number is lost. -/
theorem rowsOfEight_cut (xs : List Binary64) :
    (∀ row ∈ (rowsOfEight xs).1, row.length = 8) ∧
      (xs.any isNaN = true →
        (rowsOfEight xs).1.any (·.any isNaN) = true ∨ (rowsOfEight xs).2.any isNaN = true) := by
  induction xs using rowsOfEight.induct with
  | case1 xs enough _ rows rest hrows ih =>
    rw [rowsOfEight, dif_pos enough]
    refine ⟨List.forall_mem_cons.mpr ⟨List.length_take_of_le enough, ih.1⟩, fun h => ?_⟩
    rw [← List.take_append_drop 8 xs, List.any_append, Bool.or_eq_true] at h
    rw [List.any_cons, Bool.or_eq_true, or_assoc]
    exact h.imp_right ih.2
  | case2 xs short =>
    rw [rowsOfEight, dif_neg short]
    exact ⟨List.forall_mem_nil _, .inr⟩

/-! ## Sums -/

/-- Eight numbers are added as a tree, and others in order. -/
@[simp] theorem isNaN_sumOfEight (h : xs.any isNaN = true) : (sumOfEight xs).isNaN = true := by
  have hadd : ∀ {x y : Binary64}, x.isNaN = true ∨ y.isNaN = true → (x + y).isNaN = true :=
    fun {x y} => absorbs_add x y
  rw [sumOfEight.eq_def]
  split
  · next a b c d e f g k =>
    have hsome : ((a.isNaN = true ∨ b.isNaN = true) ∨ c.isNaN = true ∨ d.isNaN = true) ∨
        (e.isNaN = true ∨ f.isNaN = true) ∨ g.isNaN = true ∨ k.isNaN = true := by
      simpa [or_assoc] using h
    exact hadd (hsome.imp (fun h => hadd (h.imp hadd hadd)) fun h => hadd (h.imp hadd hadd))
  · exact isNaN_sumInOrder h

/-- A block with a NaN has a NaN for its sum. -/
@[simp] theorem isNaN_sumOfBlock (h : xs.any isNaN = true) : (sumOfBlock xs).isNaN = true := by
  obtain ⟨height, hkeeps⟩ := rowsOfEight_cut xs
  rw [sumOfBlock]
  generalize rowsOfEight xs = cutted at height hkeeps
  obtain ⟨rows, rest⟩ := cutted
  cases rows with
  | nil => exact isNaN_sumInOrder ((hkeeps h).resolve_left Bool.false_ne_true)
  | cons row rows =>
    obtain ⟨-, hcolumns⟩ := foldl_addColumns (fun r hr => height r (List.mem_cons_of_mem row hr))
      (height row (List.mem_cons_self ..))
    refine isNaN_foldl absorbs_add ((hkeeps h).imp_left fun hrows => ?_)
    rw [List.any_cons, Bool.or_eq_true] at hrows
    exact isNaN_sumOfEight (hcolumns hrows)

/-- **A sum with a NaN is NaN**, in pairwise order as well. -/
@[simp] theorem isNaN_pairwiseSum (h : xs.any isNaN = true) : (pairwiseSum xs).isNaN = true := by
  induction xs using pairwiseSum.induct with
  | case1 xs few =>
    rw [pairwiseSum, if_pos few]
    exact isNaN_sumInOrder h
  | case2 xs many block =>
    rw [pairwiseSum, if_neg many, if_pos block]
    exact isNaN_sumOfBlock h
  | case3 xs many long ihleft ihright =>
    rw [← List.take_append_drop (cut xs.length) xs, List.any_append, Bool.or_eq_true] at h
    rw [pairwiseSum, if_neg many, if_neg long]
    exact absorbs_add _ _ (h.imp ihleft ihright)

/-- The zero that a sum begins with changes nothing. -/
@[simp] theorem isNaN_sumOf (h : xs.any isNaN = true) : (sumOf xs).isNaN = true :=
  absorbs_add _ _ (.inr (isNaN_pairwiseSum h))

end Lists

/-! ## Powers -/

/-- The rank of one. -/
theorem exists_rank_one :
    ∃ r, ∃ h : r ≤ topRank, (1 : Binary64) = .number false r h ∧ units r = unitsPerOne :=
  ⟨0x3ff0000000000000, by decide, by decide +kernel, by decide +kernel⟩

/-- Only one has the magnitude of one. -/
theorem eq_one_of_units {r : Nat} (h : r ≤ topRank) (hr : units r = unitsPerOne) :
    Binary64.number false r h = 1 := by
  obtain ⟨q, hq, hone, hunits⟩ := exists_rank_one
  obtain rfl : r = q := units_strictMono.injective (hr.trans hunits.symm)
  exact hone.symm

/-- To the power of zero, everything is one. -/
theorem pow_zero_eq_one (x y : Binary64) (h : y.isZero = true) : x.pow y = 1 := by
  cases y with
  | nan t => cases h
  | number t q hq =>
    have hzero : q = 0 := eq_of_beq h
    cases x with
    | nan s => exact if_pos hzero
    | number s r hr => exact if_pos (.inl hzero)

/-- Every power of one is one. -/
@[simp] theorem one_pow_eq_one (y : Binary64) : (1 : Binary64).pow y = 1 := by
  obtain ⟨r, hr, hone, hunits⟩ := exists_rank_one
  have hpow : (Binary64.number false r hr).pow y = 1 := by
    cases y with
    | nan t => exact if_pos ⟨hunits, rfl⟩
    | number t q hq => exact if_pos (.inr ⟨hunits, rfl⟩)
  rwa [← hone] at hpow

/-- But for these, a power with a NaN in it is NaN. -/
theorem isNaN_pow (x y : Binary64) (h : x.isNaN = true ∨ y.isNaN = true) (hone : x ≠ 1)
    (hzero : y.isZero = false) : (x.pow y).isNaN = true := by
  cases x with
  | nan s =>
    cases y with
    | nan t => rfl
    | number t q hq =>
      have hq : ¬ q = 0 := by simpa [isZero] using hzero
      rw [pow, if_neg hq]
      rfl
  | number s r hr =>
    cases y with
    | number t q hq => exact absurd (h.elim id id) Bool.false_ne_true
    | nan t =>
      have hother : ¬ (units r = unitsPerOne ∧ s = false) := by
        rintro ⟨hunits, rfl⟩
        exact hone (eq_one_of_units hr hunits)
      rw [pow, if_neg hother]
      rfl

/-! ## The library -/

/-- A choice between two numbers absorbs NaN. -/
theorem absorbs_keepLatest (before : Binary64 → Binary64 → Bool) : Absorbs (keepLatest before) := by
  intro x y h
  rw [keepLatest]
  split
  · assumption
  · next hx =>
    rw [if_pos (h.resolve_left hx)]
    exact h.resolve_left hx

/-- The angle of a point absorbs NaN. -/
theorem absorbs_atan2 : Absorbs atan2 :=
  .of_cases (fun _ _ => rfl) (fun _ _ _ _ => rfl) fun _ _ _ _ => rfl

/-- The functions of one argument have no other value at NaN. -/
@[simp] theorem UnaryFunction.isNaN_value (f : UnaryFunction) {x : Binary64} (h : x.isNaN = true) :
    (f.value x).isNaN = true := by
  cases x with
  | nan s => cases f <;> rfl
  | number => cases h

/-- A NaN stays one with another sign. -/
@[simp] theorem isNaN_copySign {x y : Binary64} (h : x.isNaN = true) : (x.copySign y).isNaN = true := by
  cases x with
  | nan s => rfl
  | number => cases h

/-- **The numerical library of this program is lawful.** -/
instance lawful_standardNumerics : LawfulNumerics where
  positive_eq := fun _ => rfl
  unary_nan := fun f _ h => f.isNaN_value h
  power_zero := pow_zero_eq_one
  power_one := one_pow_eq_one
  power_nan := isNaN_pow
  atan2_nan := absorbs_atan2
  fmod_nan := absorbs_fmod
  copySign_nan := fun _ _ h => isNaN_copySign h
  sum_nan := fun _ h => isNaN_sumOf h
  mean_nan := fun _ h => absorbs_div _ _ (.inl (isNaN_sumOf h))
  least_nan := fun x xs h => isNaN_foldl (absorbs_keepLatest _) (by simpa using h)
  greatest_nan := fun x xs h => isNaN_foldl (absorbs_keepLatest _) (by simpa using h)

end Reckoner
