import Mathlib.Data.Nat.Digits.Defs
import Reckoner.Proofs.Binary64.Text

/-! # How long the text of a number is

The shortest digits of a number are few, and so are the digits of its exponent. So the text of every
number fits on one line, however large or small the number is.

* **`not_reaches_decimalExponent`** — every magnitude is below the next power of ten.
* **`Within`** — decimals with at most so many digits, the first of which has a small exponent.
* **`within_shortestDigits`** — the shortest digits of a magnitude.
* **`NumberStyle.length_layout_le`** — how long the text of digits and an exponent is.
* **`Binary64.length_write_le`** — how long the text of a number is. -/

namespace Reckoner

/-! ## The leading digit -/

/-- The estimate of a decimal exponent is too small by one at most, over all binary exponents. -/
theorem not_reaches_estimate {l : Nat} (h : l < 2098) :
    ¬ Reaches (twoPow (l + 1)) (((l : Int) - 1074) * 30103 / 100000 + 2) := by
  have hall : (List.range 2098).all
      (fun l => ¬ Reaches (twoPow (l + 1)) (((l : Int) - 1074) * 30103 / 100000 + 2)) = true := by
    decide +kernel
  exact of_decide_eq_true (List.all_eq_true.mp hall l (List.mem_range.mpr h))

/-- What is below a power of ten does not reach it. -/
theorem not_reaches_of_below {u : Nat} {k : Int} (h : belowPowerOfTen u k = true) :
    ¬ Reaches u k :=
  Nat.not_le_of_lt (of_decide_eq_true h)

/-- **Every magnitude is below the power of ten after its leading digit.** -/
theorem not_reaches_decimalExponent {u : Nat} (hpos : 0 < u) (h : u < twoPow 2098) :
    ¬ Reaches u (decimalExponent u + 1) := by
  have hne := Nat.ne_of_gt hpos
  have hestimate := not_reaches_estimate (log2_lt_of_lt_twoPow hne h)
  rw [decimalExponent]
  split
  · next hguess =>
    rw [Int.sub_add_cancel]
    exact not_reaches_of_below hguess
  · split
    · next hnext => exact not_reaches_of_below hnext
    · -- a magnitude is below the next power of two
      rw [Int.add_assoc]
      exact fun hreaches => hestimate (hreaches.mono (Nat.le_of_lt Nat.lt_log2_self))

/-- The exponent of the leading digit is small. -/
theorem natAbs_decimalExponent {u : Nat} (hpos : 0 < u) (h : u < twoPow 2098) :
    (decimalExponent u).natAbs ≤ 325 := by
  have hlog := log2_lt_of_lt_twoPow (Nat.ne_of_gt hpos) h
  rw [decimalExponent]
  split
  · omega
  · split <;> omega

/-! ## Shortest digits -/

/-- A decimal is **within** so many digits when its coefficient has at most one more, and they are those
from the leading digit of a magnitude on. -/
structure Within (count u : Nat) (d : Decimal) : Prop where
  coefficient_le : d.coefficient ≤ tenPow count
  exponent_eq : d.exponent = decimalExponent u + 1 - count

section Counting

variable {u : Nat} (hpos : 0 < u) (h : u < twoPow 2098) (count : Nat)
include hpos h

/-- A magnitude has as many digits on the scale of one of them as there are up to that one. -/
theorem scaledRatio_lt :
    (scaledRatio u (decimalExponent u + 1 - count)).1 /
      (scaledRatio u (decimalExponent u + 1 - count)).2 < tenPow count := by
  have hbelow := Nat.lt_of_not_le
    (mt (reaches_iff_tenPow_le count).mpr (not_reaches_decimalExponent hpos h))
  exact (Nat.div_lt_iff_lt_mul (scaledRatio_pos _ _)).mpr hbelow

/-- The nearest decimal is within the distance that is allowed. -/
theorem within_nearestDigits : Within count u (nearestDigits count u) :=
  ⟨Nat.le_trans (divNearestEven_le _ _) (scaledRatio_lt hpos h count), rfl⟩

/-- So are its neighbours. -/
theorem within_neighbourDigits : ∀ d ∈ neighbourDigits count u, Within count u d := by
  have hlt := scaledRatio_lt hpos h count
  have hlow : Within count u ⟨_, decimalExponent u + 1 - count⟩ := ⟨Nat.le_of_lt hlt, rfl⟩
  have hhigh : Within count u ⟨_, decimalExponent u + 1 - count⟩ := ⟨hlt, rfl⟩
  intro d hd
  rw [neighbourDigits] at hd
  dsimp only at hd
  split at hd
  · simp only [List.mem_cons, List.not_mem_nil, or_false] at hd
    rcases hd with rfl | rfl
    · exact hlow
    · exact hhigh
  · simp only [List.mem_cons, List.not_mem_nil, or_false] at hd
    rcases hd with rfl | rfl
    · exact hhigh
    · exact hlow

end Counting

/-- **The shortest digits of a magnitude** are seventeen at most. -/
theorem within_shortestDigits {r : Nat} (hpos : 0 < r) (htop : r < topRank) :
    ∃ count, count ≤ 17 ∧ Within count (units r) (shortestDigits r) := by
  have hpositive := units_pos hpos
  have hunits := units_lt_twoPow htop
  rw [shortestDigits]
  cases hsearch : (List.range 17).findSome? fun i =>
      (neighbourDigits (i + 1) (units r)).find? fun d => d.rank = r with
  | none => exact ⟨17, Nat.le_refl 17, within_nearestDigits hpositive hunits 17⟩
  | some d =>
    obtain ⟨i, hi, hfound⟩ := List.exists_of_findSome?_eq_some hsearch
    exact ⟨i + 1, List.mem_range.mp hi,
      within_neighbourDigits hpositive hunits (i + 1) d (List.mem_of_find?_eq_some hfound)⟩

/-! ## Laying out -/

/-- A number below a power of ten has no more digits than that power has zeros. -/
theorem length_toString_le {n e : Nat} (hpos : 0 < e) (h : n < tenPow e) :
    (toString n).length ≤ e := by
  have hdigits := Nat.toDigits_length 10 n e hpos h
  rwa [← Nat.toList_repr, String.length_toList] at hdigits

namespace NumberStyle

/-- An exponent of three digits, with its letter and sign. -/
theorem length_exponentText_le {e : Int} (h : e.natAbs < 1000) : (exponentText e).length ≤ 5 := by
  have hdigits : (toString e.natAbs).length ≤ 3 := length_toString_le (by decide) h
  have hletter : ("e" ++ if e < 0 then "-" else "+").length = 2 := by split <;> rfl
  have hzero : ("0" : String).length = 1 := rfl
  rw [exponentText, String.length_append, hletter]
  split
  · rw [String.length_append, hzero]
    omega
  · omega

/-- **How long the text of digits is**: a point, and zeros or an exponent, are added to them. -/
theorem length_layout_le {style : NumberStyle} (hleast : -4 ≤ style.leastPositional)
    (hfirst : style.firstScientific ≤ 16) {ds : List Char} (hds : ds.length ≤ 18) {e : Int}
    (h : e.natAbs < 1000) : (style.layout ds e).length ≤ 24 := by
  unfold layout
  by_cases hscientific : e < style.leastPositional ∨ style.firstScientific ≤ e
  · have hexponent := length_exponentText_le h
    rw [if_pos hscientific, String.length_append, String.length_ofList]
    split
    · simp only [List.length_cons] at hds ⊢
      omega
    · omega
  · rw [if_neg hscientific]
    by_cases hsmall : e < 0
    · have hpoint : ("0." : String).length = 2 := rfl
      rw [if_pos hsmall, String.length_append, hpoint, String.length_ofList, List.length_append,
        List.length_replicate]
      omega
    · have hzero : (if style.keepsPointZero then ".0" else "").length ≤ 2 := by split <;> decide
      have hpoint : (".": String).length = 1 := rfl
      rw [if_neg hsmall]
      dsimp only
      split
      · rw [String.length_append, String.length_ofList, List.length_append, List.length_take,
          List.length_replicate]
        omega
      · rw [String.length_append, String.length_append, hpoint, String.length_ofList,
          String.length_ofList, List.length_append, List.length_take, List.length_replicate,
          List.length_drop]
        omega

end NumberStyle

/-- The digits of a decimal without the zeros at their end. -/
theorem length_strippedDigits_le {c count : Nat} (hc : c ≠ 0) (h : c ≤ tenPow count) :
    1 ≤ (Nat.toDigits 10 c).length ∧ (Nat.toDigits 10 c).length ≤ count + 1 ∧
      (strippedDigits c).length ≤ count + 1 := by
  have hbelow : c < 10 ^ (count + 1) := by
    refine Nat.lt_of_le_of_lt h ?_
    exact Nat.pow_lt_pow_succ (by decide)
  have hdigits := Nat.toDigits_length 10 c (count + 1) (Nat.succ_pos count) hbelow
  obtain ⟨hne, j, happend⟩ := toDigits_eq_strippedDigits_append hc
  have hlength := congrArg List.length happend
  have hpos := List.length_pos_iff.mpr hne
  rw [List.length_append, List.length_replicate] at hlength
  omega

/-- The text of at most seventeen digits. -/
theorem Decimal.length_write_le {style : NumberStyle} (hleast : -4 ≤ style.leastPositional)
    (hfirst : style.firstScientific ≤ 16) {u count : Nat} {d : Decimal} (hpos : 0 < u)
    (hu : u < twoPow 2098) (hcount : count ≤ 17) (h : Within count u d) :
    (d.write style).length ≤ 24 := by
  rw [write]
  split
  · exact NumberStyle.length_layout_le hleast hfirst (by decide) (by decide)
  · next hc =>
    obtain ⟨hone, hlength, hstripped⟩ := length_strippedDigits_le hc h.coefficient_le
    have hexponent := natAbs_decimalExponent hpos hu
    have hleading : d.leadingExponent.natAbs < 1000 := by
      rw [leadingExponent, h.exponent_eq]
      omega
    exact NumberStyle.length_layout_le hleast hfirst
      (Nat.le_trans hstripped (Nat.succ_le_succ hcount)) hleading

/-- **The text of the shortest digits of a number** has twenty-five characters at most. -/
theorem Binary64.length_write_le {style : NumberStyle} (hleast : -4 ≤ style.leastPositional)
    (hfirst : style.firstScientific ≤ 16) {x : Binary64} (finite : x.isFinite = true) :
    (x.write style shortestDigits).length ≤ 25 := by
  cases x with
  | nan s => cases finite
  | number s r hr =>
    have htop : r < topRank := of_decide_eq_true finite
    -- the text without its sign
    obtain ⟨body, htext, hbody⟩ : ∃ body : String,
        (number s r hr).write style shortestDigits = (if s then "-" ++ body else body) ∧
          body.length ≤ 24 := by
      rw [write, if_neg (Nat.ne_of_lt htop)]
      refine ⟨_, rfl, ?_⟩
      split
      · rw [Decimal.write, if_pos rfl]
        exact NumberStyle.length_layout_le hleast hfirst (by decide) (by decide)
      · next hne =>
        have hpos := Nat.pos_of_ne_zero hne
        obtain ⟨count, hcount, hwithin⟩ := within_shortestDigits hpos htop
        exact Decimal.length_write_le hleast hfirst (units_pos hpos) (units_lt_twoPow htop) hcount
          hwithin
    have hsign : ("-" : String).length = 1 := rfl
    rw [htext]
    split
    · rw [String.length_append, hsign]
      omega
    · omega

end Reckoner
