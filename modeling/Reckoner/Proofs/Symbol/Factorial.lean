import Mathlib.Data.Nat.Factorial.Basic
import Reckoner.Binary64.Decimal
import Reckoner.Proofs.Binary64.Integers
import Reckoner.Proofs.Binary64.Nearest
import Reckoner.Proofs.Symbol.Checked

/-! # The factorial of a number

The factorial of a number above minus one is the exact factorial of its integer part, rounded once. From
`171` on the exact value is too large to be finite, and up to `170` it is not, so that the values which
are not computed are infinite anyway. It follows that the factorial keeps the order.

* **`factorialNat_eq`** — the product that is computed is the factorial.
* **`isFinite_ofNat_factorial`** — which factorials are finite.
* **`Binary64.exists_factorial_eq`** — the factorial is that of the integer part, rounded once.
* **`Binary64.isNaN_factorial`** — what has no factorial.
* **`factorial_nearest`** — all of this in one statement. -/

namespace Reckoner

/-! ## Factorials of natural numbers -/

/-- The factorial is the one of the library. -/
@[simp] theorem factorialNat_eq (n : Nat) : factorialNat n = n.factorial := by
  induction n with
  | zero => rfl
  | succ n ih => rw [factorialNat, Nat.factorial_succ, ih]

/-- The first factorial that is too large decides for all after it. -/
theorem overflowUnits_le_factorial {n : Nat} (h : 170 < n) :
    overflowUnits ≤ n.factorial * unitsPerOne := by
  have hfirst : overflowUnits ≤ Nat.factorial 171 * unitsPerOne := by decide +kernel
  exact Nat.le_trans hfirst (Nat.mul_le_mul_right unitsPerOne (Nat.factorial_le h))

/-- From 171 on, factorials are beyond the largest finite number. -/
@[simp] theorem ofNat_factorial_eq_infinity {n : Nat} (h : 170 < n) :
    Binary64.ofNat n.factorial = .infinity false :=
  (Binary64.isNearest_ofRatio _).overflow (overflowUnits_le_factorial h)

/-- **The factorials up to that of `170` are finite, and no others.** -/
@[simp] theorem isFinite_ofNat_factorial {n : Nat} :
    (Binary64.ofNat n.factorial).isFinite = true ↔ n ≤ 170 := by
  constructor
  · intro hfinite
    by_contra hlarge
    rw [ofNat_factorial_eq_infinity (Nat.lt_of_not_le hlarge)] at hfinite
    exact absurd hfinite (by decide)
  · intro hsmall
    have hlt : (n.factorial : Int).natAbs < twoPow 1020 := by
      rw [Int.natAbs_natCast, ← factorialNat_eq]
      exact factorialNat_lt hsmall
    rw [← Binary64.ofInt_natCast]
    exact Binary64.isFinite_ofInt hlt

namespace Binary64

/-! ## Factorials of numbers -/

/-- The place of minus one. -/
@[simp] theorem place_neg_one : (-1 : Binary64).place = some (-0x3ff0000000000000) := by
  decide +kernel

/-- The rank of one. -/
@[simp] theorem units_one : units 0x3ff0000000000000 = unitsPerOne := by
  decide +kernel

/-- Infinity would have a whole part. -/
theorem units_topRank_div_pos : 0 < units topRank / unitsPerOne := by
  decide +kernel

/-- What is at most minus one: the numbers with a sign and a positive integer part. -/
theorem le_neg_one_iff {s : Bool} {r : Nat} {hr : r ≤ topRank} :
    number s r hr ≤ -1 ↔ s = true ∧ 0 < units r / unitsPerOne := by
  have hpos : 0 < unitsPerOne := twoPow_pos 1074
  rw [le_iff_place rfl place_neg_one, Nat.div_pos_iff, and_iff_right hpos, ← units_one,
    units_strictMono.le_iff_le]
  cases s with
  | true =>
    rw [if_pos rfl, and_iff_right rfl]
    omega
  | false =>
    rw [if_neg Bool.false_ne_true]
    exact iff_of_false (by omega) fun h => Bool.false_ne_true h.1

/-- Above minus one, all numbers but infinity are finite. -/
theorem eq_infinity_of_above {x : Binary64} (above : -1 < x) (h : x.isFinite = false) :
    x = infinity false := by
  cases x with
  | nan s => cases above
  | number s r hr =>
    obtain rfl : r = topRank := Nat.le_antisymm hr (Nat.le_of_not_lt (of_decide_eq_false h))
    cases s with
    | false => rfl
    | true =>
      have hbelow : number true topRank hr ≤ -1 := le_neg_one_iff.mpr ⟨rfl, units_topRank_div_pos⟩
      exact absurd hbelow ((lt_iff_not_le rfl rfl).mp above)

/-- **The factorial is that of the integer part, rounded once.** A number between minus one and zero has the
integer part zero. -/
theorem exists_factorial_eq {x : Binary64} (finite : x.isFinite = true) (above : -1 < x) :
    ∃ n : Nat, x.truncate? = some (n : Int) ∧ x.factorial = ofNat n.factorial := by
  cases x with
  | nan s => cases finite
  | number s r hr =>
    have hlt : r < topRank := of_decide_eq_true finite
    have hsign := mt le_neg_one_iff.mpr ((lt_iff_not_le rfl rfl).mp above)
    refine ⟨units r / unitsPerOne, ?_, ?_⟩
    · rw [truncate?_number hlt]
      split
      · next hs =>
        have hzero : units r / unitsPerOne = 0 := by
          by_contra hne
          exact hsign ⟨hs, Nat.pos_of_ne_zero hne⟩
        rw [hzero]
        rfl
      · rfl
    · rw [factorial, if_neg (Nat.ne_of_lt hlt)]
      dsimp only
      rw [if_neg hsign]
      split
      · next hlarge => exact (ofNat_factorial_eq_infinity hlarge).symm
      · rw [factorialNat_eq]

/-- **What has no factorial**: NaN, and what is at most minus one. -/
@[simp] theorem isNaN_factorial {x : Binary64} : x.factorial.isNaN = true ↔ x.isNaN = true ∨ x ≤ -1 := by
  cases x with
  | nan s => exact iff_of_true rfl (.inl rfl)
  | number s r hr =>
    rw [le_neg_one_iff, isNaN_number, or_iff_right Bool.false_ne_true, factorial]
    split
    · next htop =>
      subst htop
      cases s with
      | true => exact iff_of_true rfl ⟨rfl, units_topRank_div_pos⟩
      | false => exact iff_of_false Bool.false_ne_true fun h => Bool.false_ne_true h.1
    · dsimp only
      split
      · next hsign => exact iff_of_true rfl hsign
      · next hsign =>
        refine iff_of_false ?_ hsign
        split <;> exact Bool.false_ne_true

/-- Above minus one, every number has a factorial. -/
@[simp] theorem isNaN_factorial_of_above {x : Binary64} (above : -1 < x) : x.factorial.isNaN = false := by
  cases x with
  | nan s => cases above
  | number s r hr =>
    rw [Bool.eq_false_iff, Ne, isNaN_factorial, isNaN_number, or_iff_right Bool.false_ne_true]
    exact (lt_iff_not_le rfl rfl).mp above

/-- **The factorial keeps the order.** -/
theorem factorial_le_factorial {x y : Binary64} (above : -1 < x) (h : x ≤ y) :
    x.factorial ≤ y.factorial := by
  have habove : -1 < y := lt_of_lt_of_le above h
  cases hy : y.isFinite with
  | false =>
    rw [eq_infinity_of_above habove hy]
    exact le_infinity (isNaN_factorial_of_above above)
  | true =>
    have hx : x.isFinite = true := by
      by_contra hinfinite
      rw [eq_infinity_of_above above (Bool.eq_false_iff.mpr hinfinite)] at h
      exact not_infinity_le hy h
    obtain ⟨m, hm, hfactorial⟩ := exists_factorial_eq hx above
    obtain ⟨n, hn, hfactorial'⟩ := exists_factorial_eq hy habove
    have hle : m ≤ n := Int.ofNat_le.mp (truncate_mono hm hn h)
    rw [hfactorial, hfactorial']
    exact ofNat_le_ofNat (Nat.factorial_le hle)

/-- And it is at least one. -/
theorem one_le_factorial {x : Binary64} (above : -1 < x) : 1 ≤ x.factorial := by
  cases hfinite : x.isFinite with
  | true =>
    obtain ⟨n, -, hn⟩ := exists_factorial_eq hfinite above
    rw [hn]
    exact ofNat_le_ofNat n.factorial_pos
  | false =>
    rw [eq_infinity_of_above above hfinite]
    exact le_infinity rfl

end Binary64

/-- **The factorial is correctly rounded.** For a finite number above minus one with the integer part `n`,
it is the one number that is nearest to `n!`, and infinity if that is too large. The exact `n!` is rounded
to a finite number for `n` up to `170`, and for no other `n`. So the factorial keeps the order from minus
one up to infinity, and it is at least one there. It is NaN for NaN, for minus infinity and for all that
is at most minus one, and for nothing else. -/
theorem factorial_nearest :
    (∀ x : Binary64, x.isFinite = true → -1 < x → ∃ n : Nat, x.IntegerPart n ∧
      ∀ y : Binary64, y.IsNearest (n.factorial * unitsPerOne) ↔ y = x.factorial) ∧
    (∀ n : Nat, ∃ y : Binary64,
      (∀ z : Binary64, z.IsNearest (n.factorial * unitsPerOne) ↔ z = y) ∧
        (y.isFinite = true ↔ n ≤ 170)) ∧
    (∀ x y : Binary64, -1 < x → x ≤ y → x.factorial ≤ y.factorial) ∧
    (∀ x : Binary64, -1 < x → 1 ≤ x.factorial) ∧
    ∀ x : Binary64,
      x.factorial.isNaN = true ↔ x.isNaN = true ∨ x = .infinity true ∨ x ≤ -1 := by
  refine ⟨fun x hfinite habove => ?_, fun n => ?_, fun x y => Binary64.factorial_le_factorial,
    fun x => Binary64.one_le_factorial, fun x => ?_⟩
  · obtain ⟨n, htruncate, hfactorial⟩ := Binary64.exists_factorial_eq hfinite habove
    refine ⟨n, Binary64.integerPart_of_truncate? htruncate, fun y => ?_⟩
    rw [hfactorial]
    exact Binary64.isNearest_iff
  · exact ⟨.ofNat n.factorial, fun z => Binary64.isNearest_iff, isFinite_ofNat_factorial⟩
  · have hinfinity : x = .infinity true → x ≤ -1 := by
      rintro rfl
      decide +kernel
    rw [Binary64.isNaN_factorial, or_iff_right_of_imp hinfinity]

/-- A fraction below zero, one below `171`, and the first factorial that is infinite. -/
theorem factorial_nearest_fractions :
    (∃ n : Nat, (Binary64.ofNumeral "170.9".toList).IntegerPart n ∧
      (Binary64.ofNumeral "170.9".toList).factorial.IsNearest (n.factorial * unitsPerOne)) ∧
    (-Binary64.ofNumeral "0.5".toList).factorial ≤ (Binary64.ofNumeral "170.9".toList).factorial ∧
    1 ≤ (-Binary64.ofNumeral "0.5".toList).factorial ∧
    (-Binary64.ofNumeral "0.5".toList).factorial = 1 ∧
    (Binary64.ofNumeral "170.9".toList).factorial = Binary64.factorial 170 ∧
    (Binary64.factorial 170).isFinite = true ∧
    Binary64.factorial 171 = .infinity false := by
  obtain ⟨hnearest, -, hmono, hleast, -⟩ := factorial_nearest
  have hbelow : -1 < -Binary64.ofNumeral "0.5".toList := by decide +kernel
  obtain ⟨n, hpart, hvalue⟩ :=
    hnearest (Binary64.ofNumeral "170.9".toList) (by decide +kernel) (by decide +kernel)
  exact ⟨⟨n, hpart, (hvalue _).mpr rfl⟩, hmono _ _ hbelow (by decide +kernel), hleast _ hbelow,
    by decide +kernel, by decide +kernel, by decide +kernel, by decide +kernel⟩

end Reckoner
