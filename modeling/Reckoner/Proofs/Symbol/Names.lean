import Reckoner.Symbol.Lookup
import Reckoner.Token.Scan

/-! # The names of functions

A function is found under its own name.

* **`lowercase_eq_self`** — small letters and digits stay as they are.
* **`Function.mem_all`** — all functions are listed.
* **`Function.exists_name`** — names begin with a letter and go on with letters and digits.
* **`function?_name`** — the name of a function stands for it. -/

namespace Reckoner

/-- Whether a character is a small ASCII letter or a digit. -/
def isSmall (c : Char) : Bool := c.isLower || c.isDigit

/-- The code points of small letters and digits. -/
theorem toNat_of_isSmall {c : Char} (h : isSmall c = true) :
    97 ≤ c.toNat ∧ c.toNat ≤ 122 ∨ 48 ≤ c.toNat ∧ c.toNat ≤ 57 := by
  rw [isSmall, Bool.or_eq_true] at h
  exact h.imp isLower_iff.mp Char.isDigit_iff_toNat.mp

/-- The capital letters stand before the small ones, and after them all others are far away. -/
@[simp] theorem lowerChar_eq_self {c : Char} (h : isSmall c = true) : lowerChar c = c := by
  have hrange := toNat_of_isSmall h
  have htable : (lowerTable.all fun (first, last, _) => 192 ≤ first || (58 ≤ first && last < 97)) =
      true := by decide
  rw [lowerChar]
  split
  · next first last step distance hfound =>
    -- no entry holds the character
    have hentry := List.all_eq_true.mp htable _ (List.mem_of_find?_eq_some hfound)
    have hmatch := List.find?_some hfound
    simp only [Bool.or_eq_true, Bool.and_eq_true, decide_eq_true_eq] at hentry hmatch
    omega
  · rfl

/-- A text of small letters and digits is its own small form. -/
theorem lowercaseFrom_eq_self {before cs : List Char} (h : ∀ c ∈ cs, isSmall c = true) :
    lowercaseFrom before cs = cs := by
  induction cs generalizing before with
  | nil => rfl
  | cons c cs ih =>
    obtain ⟨hc, hcs⟩ := List.forall_mem_cons.mp h
    have hother : ∀ d, isSmall d = false → c ≠ d := by
      rintro d hd rfl
      rw [hc] at hd
      cases hd
    rw [lowercaseFrom, if_neg (hother _ (by decide)), if_neg (hother _ (by decide)),
      lowerChar_eq_self hc, ih hcs]
    rfl

/-- **Small letters and digits stay as they are.** -/
@[simp] theorem lowercase_eq_self {s : String} (h : ∀ c ∈ s.toList, isSmall c = true) :
    lowercase s = s := by
  rw [lowercase, lowercaseFrom_eq_self h, String.ofList_toList]

/-- So do names without a point. -/
@[simp] theorem canonicalName_eq_self {s : String} (h : ∀ c ∈ s.toList, isSmall c = true) :
    canonicalName s = s := by
  have hnamespaces : namespaces.find? (fun ns => ns.isPrefixOf s.toList) = none := by
    refine List.find?_eq_none.mpr ?_
    intro ns hns hbegins
    -- a namespace ends in a point
    have hpoint : (namespaces.all fun ns => ns.elem '.') = true := by decide
    have hmem : '.' ∈ ns := List.elem_iff.mp (List.all_eq_true.mp hpoint ns hns)
    have hsmall := h '.' ((List.isPrefixOf_iff_prefix.mp hbegins).subset hmem)
    cases hsmall
  rw [canonicalName, lowercase_eq_self h, dropNamespace, hnamespaces, String.ofList_toList]

/-- **All functions are listed.** -/
theorem Function.mem_all (f : Function) : f ∈ Function.all := by
  have hmap : ∀ {α : Type} (g : α → Function) {l : List α} {x : α}, x ∈ l → g x ∈ l.map g :=
    fun g _ _ h => List.mem_map_of_mem h
  rw [Function.all, List.mem_append, List.mem_append, List.mem_append]
  cases f with
  | reducer f => exact .inl (.inl (.inl (hmap _ (by cases f <;> decide))))
  | unary f => exact .inl (.inl (.inr (hmap _ (by cases f <;> decide))))
  | binary f => exact .inl (.inr (hmap _ (by cases f <;> decide)))
  | ternary f => exact .inr (hmap _ (by cases f; decide))

/-- The names of functions are made of small letters and digits. -/
theorem Function.isSmall_name (f : Function) : ∀ c ∈ f.name.toList, isSmall c = true := by
  have hall : (Function.all.all fun f => f.name.toList.all isSmall) = true := by decide
  exact fun c hc => List.all_eq_true.mp (List.all_eq_true.mp hall f f.mem_all) c hc

/-- **A name begins with a letter** and goes on with letters and digits. -/
theorem Function.exists_name (f : Function) : ∃ c name, f.name.toList = c :: name ∧
    isNameStart c = true ∧ ∀ x ∈ name, isNameChar x = true := by
  have hfirst : (Function.all.all fun f => f.name.toList.head?.any isNameStart) = true := by decide
  have hf := List.all_eq_true.mp hfirst f f.mem_all
  cases hname : f.name.toList with
  | nil =>
    rw [hname] at hf
    cases hf
  | cons c name =>
    rw [hname] at hf
    refine ⟨c, name, rfl, hf, ?_⟩
    intro x hx
    have hsmall := f.isSmall_name x (by rw [hname]; exact List.mem_cons_of_mem c hx)
    rw [isSmall, Bool.or_eq_true] at hsmall
    rcases hsmall with hlower | hdigit
    · have hletter : x.isAlpha = true := isAlpha_iff.mpr (.inr (isLower_iff.mp hlower))
      simp [isNameChar, isNameStart, hletter]
    · simp [isNameChar, hdigit]

/-- **The name of a function stands for it.** -/
@[simp] theorem function?_name (f : Function) : function? f.name = some f := by
  have hall : (Function.all.all fun f => Function.all.find? (fun g => g.name = f.name) = some f) =
      true := by decide +kernel
  rw [function?, canonicalName_eq_self f.isSmall_name]
  exact decide_eq_true_eq.mp (List.all_eq_true.mp hall f f.mem_all)

end Reckoner
