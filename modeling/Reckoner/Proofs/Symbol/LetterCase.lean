import Mathlib.Data.List.Basic
import Reckoner.Binary64.Decimal
import Reckoner.Proofs.Symbol.Names

/-! # The case of letters in names and numbers

Names and numerals mean the same whether their ASCII letters are small or capital. Two texts that
differ in the case of letters only have the same small form, so it is enough to compare a text with its
small form.

* **`switchCase`** — a text in which some letters have changed their case.
* **`smallForm`** — a text with small ASCII letters; switching cases does not change it
  (`smallForm_switchCase`).
* **`apply_toLower`** — what holds of twenty-six capitals holds of all characters.
* **`constant?_smallForm`, `function?_smallForm`, `ofNumeral_smallForm`** — what names and numerals
  stand for. -/

namespace Reckoner

/-! ## Letters -/

/-- The **other case** of an ASCII letter, and any other character itself. -/
def otherCase (c : Char) : Char :=
  if c.isUpper then c.toLower else if c.isLower then c.toUpper else c

/-- A text in which the letters at the chosen positions have **changed their case**. -/
def switchCase (chosen : Nat → Bool) (s : String) : String :=
  String.ofList (s.toList.mapIdx fun i c => if chosen i then otherCase c else c)

/-- A text with **small letters** for the ASCII capitals. -/
def smallForm (s : String) : String := String.ofList (s.toList.map Char.toLower)

/-- The small form of a text is that of its characters. -/
@[simp] theorem toList_smallForm (s : String) : (smallForm s).toList = s.toList.map Char.toLower :=
  String.toList_ofList

/-- The small form of a text is as long as the text. -/
@[simp] theorem length_smallForm (s : String) : (smallForm s).length = s.length := by
  rw [← String.length_toList, toList_smallForm, List.length_map, String.length_toList]

/-- The small form of some characters as a text. -/
@[simp] theorem smallForm_ofList (cs : List Char) :
    smallForm (String.ofList cs) = String.ofList (cs.map Char.toLower) := by
  rw [smallForm, String.toList_ofList]

/-- A character in a range of twenty-six is one of twenty-six. -/
theorem exists_letter {first : Nat} {c : Char} (h : first ≤ c.toNat ∧ c.toNat < first + 26) :
    ∃ i : Fin 26, c = Char.ofNat (first + i) := by
  refine ⟨⟨c.toNat - first, by omega⟩, ?_⟩
  rw [Nat.add_sub_cancel' h.1, Char.ofNat_toNat]

/-- The capital letters are twenty-six. -/
theorem exists_capital {c : Char} (h : c.isUpper = true) : ∃ i : Fin 26, c = Char.ofNat (65 + i) := by
  have hrange := isUpper_iff.mp h
  exact exists_letter ⟨hrange.1, Nat.lt_succ_of_le hrange.2⟩

/-- So are the small ones. -/
theorem exists_small {c : Char} (h : c.isLower = true) : ∃ i : Fin 26, c = Char.ofNat (97 + i) := by
  have hrange := isLower_iff.mp h
  exact exists_letter ⟨hrange.1, Nat.lt_succ_of_le hrange.2⟩

/-- What is no capital letter is its own small form. -/
theorem toLower_eq_self {c : Char} (h : c.isUpper = false) : c.toLower = c :=
  dif_neg (decide_eq_false_iff_not.mp h)

/-- **Only the capitals matter**: what does not tell them from their small letters does not tell any
character from its small form. -/
theorem apply_toLower {β : Type} {f : Char → β}
    (capital : ∀ i : Fin 26, f (Char.ofNat (65 + i)).toLower = f (Char.ofNat (65 + i))) (c : Char) :
    f c.toLower = f c := by
  cases h : c.isUpper with
  | true =>
    obtain ⟨i, rfl⟩ := exists_capital h
    exact capital i
  | false => rw [toLower_eq_self h]

/-- Capital letters are letters, and so are their small forms. -/
theorem isAlpha_capital : ∀ i : Fin 26, (Char.ofNat (65 + i)).toLower.isAlpha = true ∧
    (Char.ofNat (65 + i)).isAlpha = true := by
  decide

/-- The small form of a character is a sign of any kind only if the character itself is. -/
theorem toLower_eq_iff {x : Char} (hx : x.isAlpha = false) (c : Char) : c.toLower = x ↔ c = x := by
  cases h : c.isUpper with
  | true =>
    obtain ⟨i, rfl⟩ := exists_capital h
    constructor
    · rintro rfl
      rw [(isAlpha_capital i).1] at hx
      cases hx
    · rintro rfl
      rw [(isAlpha_capital i).2] at hx
      cases hx
  | false => rw [toLower_eq_self h]

/-- A text begins with a sign only if its small form does. -/
theorem map_toLower_eq_cons_iff {x : Char} (hx : x.isAlpha = false) {cs rest : List Char} :
    cs.map Char.toLower = x :: rest ↔ ∃ r, cs = x :: r ∧ r.map Char.toLower = rest := by
  cases cs with
  | nil => simp
  | cons c r => simp [toLower_eq_iff hx]

/-- A letter and its other case have the same small form. -/
@[simp] theorem toLower_otherCase (c : Char) : (otherCase c).toLower = c.toLower := by
  rw [otherCase]
  split
  · next h =>
    have hcapital : ∀ i : Fin 26,
        (Char.ofNat (65 + i)).toLower.toLower = (Char.ofNat (65 + i)).toLower := by decide
    obtain ⟨i, rfl⟩ := exists_capital h
    exact hcapital i
  · split
    · next h =>
      have hsmall : ∀ i : Fin 26,
          (Char.ofNat (97 + i)).toUpper.toLower = (Char.ofNat (97 + i)).toLower := by decide
      obtain ⟨i, rfl⟩ := exists_small h
      exact hsmall i
    · rfl

/-- **Switching cases does not change the small form.** -/
@[simp] theorem smallForm_switchCase (chosen : Nat → Bool) (s : String) :
    smallForm (switchCase chosen s) = smallForm s := by
  have hsame : ∀ i c, Char.toLower (if chosen i then otherCase c else c) = c.toLower := by
    intro i c
    split
    · exact toLower_otherCase c
    · rfl
  rw [switchCase, smallForm_ofList, smallForm]
  congr 1
  refine List.ext_getElem? fun i => ?_
  simp only [List.getElem?_map, List.getElem?_mapIdx, Option.map_map]
  congr 1
  exact funext (hsame i)

/-! ## Runs of characters -/

/-- A class that does not see the case ends at the same place. -/
theorem takeWhile_toLower {p : Char → Bool} (hp : ∀ c, p c.toLower = p c) (cs : List Char) :
    (cs.map Char.toLower).takeWhile p = (cs.takeWhile p).map Char.toLower := by
  have hcomp : p ∘ Char.toLower = p := funext hp
  rw [List.takeWhile_map, hcomp]

/-- And so what follows begins there. -/
theorem dropWhile_toLower {p : Char → Bool} (hp : ∀ c, p c.toLower = p c) (cs : List Char) :
    (cs.map Char.toLower).dropWhile p = (cs.dropWhile p).map Char.toLower := by
  have hcomp : p ∘ Char.toLower = p := funext hp
  rw [List.dropWhile_map, hcomp]

/-- No letter becomes a digit. -/
@[simp] theorem isDigit_toLower (c : Char) : c.toLower.isDigit = c.isDigit :=
  apply_toLower (f := Char.isDigit) (by decide) c

/-- Digits have no case. -/
@[simp] theorem toLower_of_isDigit {c : Char} (h : c.isDigit = true) : c.toLower = c := by
  have hcapital : ∀ i : Fin 26, (Char.ofNat (65 + i)).isDigit = false := by decide
  refine toLower_eq_self (Bool.eq_false_iff.mpr fun hupper => ?_)
  obtain ⟨i, rfl⟩ := exists_capital hupper
  rw [hcapital i] at h
  cases h

/-- Digits are their own small form. -/
@[simp] theorem takeWhile_isDigit_toLower (cs : List Char) :
    (cs.map Char.toLower).takeWhile Char.isDigit = cs.takeWhile Char.isDigit := by
  rw [takeWhile_toLower isDigit_toLower]
  refine (List.map_congr_left fun c hc => ?_).trans (List.map_id _)
  exact toLower_of_isDigit (List.all_eq_true.mp List.all_takeWhile c hc)

/-! ## Names -/

/-- What is small already is not changed again. -/
@[simp] theorem lowerChar_toLower (c : Char) : lowerChar c.toLower = lowerChar c := by
  have hsmall : ∀ i : Fin 26, isSmall (Char.ofNat (65 + i)).toLower = true := by decide
  have hcapital : ∀ i : Fin 26, lowerChar (Char.ofNat (65 + i)) = (Char.ofNat (65 + i)).toLower := by
    decide
  refine apply_toLower (fun i => ?_) c
  rw [lowerChar_eq_self (hsmall i), hcapital i]

/-- No letter is ignored at the end of a word. -/
theorem mem_caseIgnorableTable_eq_false {c : Char} (h : c.isAlpha = true) :
    caseIgnorableTable.mem c = false := by
  have htable : (caseIgnorableTable.all fun e =>
      e.2 < 65 || (90 < e.1 && e.2 < 97) || 122 < e.1) = true := by decide +kernel
  have hrange := isAlpha_iff.mp h
  refine Bool.eq_false_iff.mpr fun hmem => ?_
  obtain ⟨⟨first, last⟩, hentry, hin⟩ := List.any_eq_true.mp hmem
  have hout := List.all_eq_true.mp htable _ hentry
  simp only [Bool.or_eq_true, Bool.and_eq_true, decide_eq_true_eq] at hin hout
  omega

/-- Whether a letter with a case comes next does not depend on that case. -/
@[simp] theorem meetsCased_toLower (cs : List Char) : meetsCased (cs.map Char.toLower) = meetsCased cs := by
  have hignorable : ∀ c : Char, caseIgnorableTable.mem c.toLower = caseIgnorableTable.mem c := by
    refine apply_toLower fun i => ?_
    rw [mem_caseIgnorableTable_eq_false (isAlpha_capital i).1,
      mem_caseIgnorableTable_eq_false (isAlpha_capital i).2]
  rw [meetsCased, meetsCased, dropWhile_toLower hignorable]
  cases cs.dropWhile caseIgnorableTable.mem with
  | nil => rfl
  | cons c r => exact apply_toLower (f := casedTable.mem) (by decide) c

/-- The full lower-case form does not depend on the case of letters. -/
@[simp] theorem lowercaseFrom_toLower (before cs : List Char) :
    lowercaseFrom (before.map Char.toLower) (cs.map Char.toLower) = lowercaseFrom before cs := by
  induction cs generalizing before with
  | nil => rfl
  | cons c cs ih =>
    have hdotted : c.toLower = '\u0130' ↔ c = '\u0130' := toLower_eq_iff (by decide) c
    have hsigma : c.toLower = '\u03a3' ↔ c = '\u03a3' := toLower_eq_iff (by decide) c
    have hrest := ih (c :: before)
    rw [List.map_cons] at hrest
    rw [List.map_cons, lowercaseFrom, lowercaseFrom, hrest, lowerChar_toLower, meetsCased_toLower,
      meetsCased_toLower]
    simp only [hdotted, hsigma]

/-- **A name and its small form are looked up alike**. -/
@[simp] theorem canonicalName_smallForm (s : String) : canonicalName (smallForm s) = canonicalName s := by
  have hlowercase : lowercase (smallForm s) = lowercase s := by
    rw [lowercase, lowercase, toList_smallForm]
    exact congrArg String.ofList (lowercaseFrom_toLower [] s.toList)
  rw [canonicalName, canonicalName, hlowercase]

/-- **Constants** are found in any case. -/
@[simp] theorem constant?_smallForm (s : String) : constant? (smallForm s) = constant? s := by
  rw [constant?, constant?, canonicalName_smallForm]

/-- **Functions** are found in any case. -/
@[simp] theorem function?_smallForm (s : String) : function? (smallForm s) = function? s := by
  rw [function?, function?, canonicalName_smallForm]

/-! ## Numerals -/

/-- The letter of an exponent is one in either case. -/
theorem letter_toLower (c : Char) :
    (c.toLower = 'e' ∨ c.toLower = 'E') ↔ (c = 'e' ∨ c = 'E') := by
  have h := apply_toLower (f := fun c => decide (c = 'e' ∨ c = 'E')) (by decide) c
  exact decide_eq_decide.mp h

/-- Exponents are read in either case. -/
@[simp] theorem scanExponent?_toLower (cs : List Char) :
    scanExponent? (cs.map Char.toLower) =
      (scanExponent? cs).map fun (power, rest) => (power, rest.map Char.toLower) := by
  cases cs with
  | nil => rfl
  | cons c r =>
    -- the sign, if there is one, is its own small form
    by_cases hminus : ∃ body, r = '-' :: body
    · obtain ⟨body, rfl⟩ := hminus
      have hsign : ('-' :: body).map Char.toLower = '-' :: body.map Char.toLower := rfl
      rw [List.map_cons, hsign, scanExponent?, scanExponent?]
      simp only [letter_toLower, takeWhile_isDigit_toLower, dropWhile_toLower isDigit_toLower]
      split
      · split <;> rfl
      · rfl
    · by_cases hplus : ∃ body, r = '+' :: body
      · obtain ⟨body, rfl⟩ := hplus
        have hsign : ('+' :: body).map Char.toLower = '+' :: body.map Char.toLower := rfl
        rw [List.map_cons, hsign, scanExponent?, scanExponent?]
        simp only [letter_toLower, takeWhile_isDigit_toLower, dropWhile_toLower isDigit_toLower]
        split
        · split <;> rfl
        · rfl
      · have hbare : ∀ sign : Char, sign.isAlpha = false → (¬ ∃ body, r = sign :: body) →
            ∀ body, r.map Char.toLower = sign :: body → False := by
          intro sign hsign hnone body heq
          obtain ⟨body', hbody, -⟩ := (map_toLower_eq_cons_iff hsign).mp heq
          exact hnone ⟨body', hbody⟩
        rw [List.map_cons, scanExponent?.eq_3 _ _ (hbare '-' (by decide) hminus)
          (hbare '+' (by decide) hplus), scanExponent?.eq_3 _ _ (fun body h => hminus ⟨body, h⟩)
          (fun body h => hplus ⟨body, h⟩)]
        simp only [letter_toLower, takeWhile_isDigit_toLower, dropWhile_toLower isDigit_toLower]
        split
        · split <;> rfl
        · rfl

/-- Where no point comes after the digits, an exponent may. -/
theorem scanNumeral_of_ne_point {cs : List Char}
    (h : ∀ r, cs.dropWhile Char.isDigit ≠ '.' :: r) :
    scanNumeral cs =
      if (cs.takeWhile Char.isDigit).isEmpty then none
      else
        let (power, rest) := (scanExponent? (cs.dropWhile Char.isDigit)).getD
          (0, cs.dropWhile Char.isDigit)
        some (⟨digitsValue (cs.takeWhile Char.isDigit), power⟩, rest) := by
  rw [scanNumeral]
  generalize cs.dropWhile Char.isDigit = after at h
  split
  next fraction afterFraction hsplit =>
    split at hsplit
    · next r => exact absurd rfl (h r)
    · cases hsplit
      simp

/-- **Numerals are read in either case**. -/
@[simp] theorem scanNumeral_toLower (cs : List Char) :
    scanNumeral (cs.map Char.toLower) =
      (scanNumeral cs).map fun (d, rest) => (d, rest.map Char.toLower) := by
  have hdrop := dropWhile_toLower isDigit_toLower cs
  by_cases hpoint : ∃ r, cs.dropWhile Char.isDigit = '.' :: r
  · obtain ⟨r, hr⟩ := hpoint
    have hmap : ('.' :: r).map Char.toLower = '.' :: r.map Char.toLower := rfl
    rw [hr, hmap] at hdrop
    simp only [scanNumeral, hr, hdrop, takeWhile_isDigit_toLower, dropWhile_toLower isDigit_toLower,
      scanExponent?_toLower]
    split
    · rfl
    · cases scanExponent? (r.dropWhile Char.isDigit) <;> rfl
  · have hbare : ∀ r, cs.dropWhile Char.isDigit ≠ '.' :: r := fun r h => hpoint ⟨r, h⟩
    have hlower : ∀ r, (cs.map Char.toLower).dropWhile Char.isDigit ≠ '.' :: r := by
      intro r hr
      rw [hdrop] at hr
      obtain ⟨r', hr', -⟩ := (map_toLower_eq_cons_iff (by decide)).mp hr
      exact hbare r' hr'
    rw [scanNumeral_of_ne_point hbare, scanNumeral_of_ne_point hlower, takeWhile_isDigit_toLower,
      hdrop, scanExponent?_toLower]
    split
    · rfl
    · cases scanExponent? (cs.dropWhile Char.isDigit) <;> rfl

/-- **Numerals** have the same value in any case. -/
@[simp] theorem ofNumeral_smallForm (s : String) :
    Binary64.ofNumeral (smallForm s).toList = Binary64.ofNumeral s.toList := by
  rw [Binary64.ofNumeral, Binary64.ofNumeral, toList_smallForm, scanNumeral_toLower]
  cases scanNumeral s.toList <;> rfl

end Reckoner
