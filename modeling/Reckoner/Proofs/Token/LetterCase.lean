import Mathlib.Data.List.Find
import Reckoner.Proofs.Postfix.Likeness
import Reckoner.Proofs.Symbol.LetterCase
import Reckoner.Proofs.Token.Spelling

/-! # The case of letters in tokens

The scanner splits a text at the same places whatever the case of its ASCII letters is: a text and its
small form have the same tokens but for the case of their letters, and the same faults.

* **`scanNumber_toLower`, `scanToken_toLower`** — the first token of the small form of a text.
* **`Likeness.smallForm`** — tokens that are the same but for the case of their letters.
* **`Cursor.Beside`** — cursors at the same place of a text and its small form; their next tokens are
  alike (`Cursor.Beside.nexts`). -/

namespace Reckoner

variable (cs : List Char)

/-! ## Characters -/

/-- A letter starts a name in either case. -/
@[simp] theorem isNameStart_toLower (c : Char) : isNameStart c.toLower = isNameStart c :=
  apply_toLower (f := isNameStart) (by decide) c

/-- A letter stands in a name in either case. -/
@[simp] theorem isNameChar_toLower (c : Char) : isNameChar c.toLower = isNameChar c :=
  apply_toLower (f := isNameChar) (by decide) c

/-- No letter is a blank. -/
@[simp] theorem isBlank_toLower (c : Char) : isBlank c.toLower = isBlank c :=
  apply_toLower (f := isBlank) (by decide) c

/-! ## Numbers -/

/-- A text and its small form start with a blank together. -/
@[simp] theorem startsBlank_toLower : startsBlank (cs.map Char.toLower) = startsBlank cs := by
  cases cs with
  | nil => rfl
  | cons c r => exact isBlank_toLower c

/-- A number starts a text exactly when it starts its small form. -/
@[simp] theorem startsNumber_toLower : startsNumber (cs.map Char.toLower) = startsNumber cs := by
  cases cs with
  | nil => rfl
  | cons c r =>
    by_cases hpoint : c = '.'
    · subst hpoint
      cases r with
      | nil => rfl
      | cons d r => exact isDigit_toLower d
    · have hlower : c.toLower ≠ '.' := fun h => hpoint ((toLower_eq_iff (by decide) c).mp h)
      rw [List.map_cons, startsNumber_cons hlower, startsNumber_cons hpoint, isDigit_toLower]

/-- The sign of an exponent is no letter. -/
@[simp] theorem signWidth_toLower : signWidth (cs.map Char.toLower) = signWidth cs := by
  cases cs with
  | nil => rfl
  | cons c r =>
    have hplus : c.toLower = '+' ↔ c = '+' := toLower_eq_iff (by decide) c
    have hminus : c.toLower = '-' ↔ c = '-' := toLower_eq_iff (by decide) c
    rw [List.map_cons]
    unfold signWidth
    split <;> split <;> simp_all

/-- The parenthesis after a name is no letter. -/
@[simp] theorem nameKind_toLower : nameKind (cs.map Char.toLower) = nameKind cs := by
  cases cs with
  | nil => rfl
  | cons c r =>
    have hopen : c.toLower = '(' ↔ c = '(' := toLower_eq_iff (by decide) c
    rw [List.map_cons]
    unfold nameKind
    split <;> split <;> simp_all

/-- A mantissa has no letters. -/
@[simp] theorem mantissaWidth_toLower : mantissaWidth (cs.map Char.toLower) = mantissaWidth cs := by
  rw [mantissaWidth, mantissaWidth, takeWhile_isDigit_toLower, ← List.map_drop]
  cases cs.drop (cs.takeWhile Char.isDigit).length with
  | nil => rfl
  | cons c r =>
    have hpoint : c.toLower = '.' ↔ c = '.' := toLower_eq_iff (by decide) c
    rw [List.map_cons]
    by_cases hc : c = '.'
    · subst hc
      show _ + 1 + ((r.map Char.toLower).takeWhile Char.isDigit).length = _ + 1 + _
      rw [takeWhile_isDigit_toLower]
    · split
      · next heq => exact absurd (hpoint.mp (List.cons.inj heq).1) hc
      · split
        · next heq => exact absurd (List.cons.inj heq).1 hc
        · rfl

/-- A fault of the scanner in the small form of its text. -/
def ScanFault.smallForm (f : ScanFault) : ScanFault :=
  { f with cause := f.cause.respell Reckoner.smallForm }

/-- A malformed number keeps its place in the small form; its text is written small. -/
@[simp] theorem malformedNumber_toLower :
    malformedNumber (cs.map Char.toLower) = (malformedNumber cs).smallForm := by
  rw [malformedNumber, malformedNumber, takeWhile_toLower isNameChar_toLower, List.length_map,
    ScanFault.smallForm, Cause.respell, smallForm_ofList]

/-- A number ends at the same place in the small form. -/
@[simp] theorem closeNumber_toLower (width : Nat) :
    closeNumber (cs.map Char.toLower) width =
      (closeNumber cs width).mapError ScanFault.smallForm := by
  rw [closeNumber, closeNumber, ← List.map_drop, malformedNumber_toLower]
  cases cs.drop width with
  | nil => rfl
  | cons c r =>
    simp only [List.map_cons, isNameChar_toLower]
    split <;> rfl

/-- **A number in the small form** has the same width or the same fault: the letter of its exponent is read
in either case. -/
@[simp] theorem scanNumber_toLower :
    scanNumber (cs.map Char.toLower) = (scanNumber cs).mapError ScanFault.smallForm := by
  simp only [scanNumber, mantissaWidth_toLower, ← List.map_drop, malformedNumber_toLower,
    closeNumber_toLower]
  cases cs.drop (mantissaWidth cs) with
  | nil => rfl
  | cons e r =>
    simp only [List.map_cons, letter_toLower, signWidth_toLower, startsBlank_toLower, ← List.map_drop,
      takeWhile_isDigit_toLower]
    split
    · split
      · rfl
      · split <;> rfl
    · rfl

/-! ## Tokens -/

/-- A text without letters begins both a text and its small form, or neither. -/
@[simp] theorem isPrefixOf_toLower {text : List Char} (signs : text.all (!·.isAlpha) = true) :
    text.isPrefixOf (cs.map Char.toLower) = text.isPrefixOf cs := by
  induction text generalizing cs with
  | nil => rw [List.isPrefixOf_nil_left, List.isPrefixOf_nil_left]
  | cons x text ih =>
    rw [List.all_cons, Bool.and_eq_true, Bool.not_eq_true'] at signs
    obtain ⟨hx, htext⟩ := signs
    cases cs with
    | nil => rfl
    | cons c r =>
      have hfirst : (x == c.toLower) = (x == c) := by
        rw [Bool.eq_iff_iff, beq_iff_eq, beq_iff_eq, eq_comm, toLower_eq_iff hx, eq_comm]
      rw [List.map_cons, List.isPrefixOf_cons_cons, List.isPrefixOf_cons_cons, hfirst, ih r htext]

/-- A text begins with the same operator in any case. -/
@[simp] theorem find?_lexemes_toLower :
    lexemes.find? (fun (text, _) => text.isPrefixOf (cs.map Char.toLower)) =
      lexemes.find? (fun (text, _) => text.isPrefixOf cs) := by
  have hlexemes : ∀ e ∈ lexemes, e.1.all (!·.isAlpha) = true := by decide
  exact List.find?_congr fun e he => isPrefixOf_toLower cs (hlexemes e he)

/-- **The first token of the small form** of a text. -/
@[simp] theorem scanToken_toLower :
    scanToken (cs.map Char.toLower) = (scanToken cs).mapError ScanFault.smallForm := by
  cases cs with
  | nil => rfl
  | cons c r =>
    have hstarts := startsNumber_toLower (c :: r)
    have hnumber := scanNumber_toLower (c :: r)
    have hname := takeWhile_toLower isNameChar_toLower (c :: r)
    have hlexeme := find?_lexemes_toLower (c :: r)
    have hkind := nameKind_toLower ((c :: r).drop ((c :: r).takeWhile isNameChar).length)
    rw [List.map_drop] at hkind
    rw [List.map_cons] at hstarts hnumber hname hlexeme hkind ⊢
    simp only [scanToken, hstarts, hnumber, hname, hlexeme, isNameStart_toLower, List.length_map,
      hkind]
    split
    · cases scanNumber (c :: r) <;> rfl
    · split
      · rfl
      · split <;> rfl

/-! ## Cursors -/

/-- Tokens that are the same but for the **case of their letters**, which are small in the second
text. -/
def Likeness.smallForm : Likeness where
  begins i j := j = i
  spell := Reckoner.smallForm
  length_spell := length_smallForm
  constant?_spell := constant?_smallForm
  function?_spell := function?_smallForm
  ofNumeral_spell := ofNumeral_smallForm

namespace Cursor

/-- Two cursors stand **beside** each other when they are at the same place of a text and of its small
form. -/
structure Beside (c d : Cursor) : Prop where
  index : d.index = c.index
  rest : d.rest = c.rest.map Char.toLower

variable {c d : Cursor}

/-- The starts of a text and of its small form. -/
theorem beside_atStart (s : String) : Beside (.atStart s) (.atStart (smallForm s)) :=
  ⟨rfl, toList_smallForm s⟩

/-- Cursors stay side by side when both move by `n`. -/
theorem Beside.advance (h : Beside c d) (n : Nat) : Beside (c.advance n) (d.advance n) where
  index := by
    show d.index + (d.rest.take n).length = c.index + (c.rest.take n).length
    rw [h.index, h.rest, ← List.map_take, List.length_map]
  rest := by rw [rest_advance, rest_advance, h.rest, List.map_drop]

/-- Cursors stay side by side when both skip blanks. -/
theorem Beside.skipBlanks (h : Beside c d) : Beside c.skipBlanks d.skipBlanks := by
  have hrun : (d.rest.takeWhile isBlank).length = (c.rest.takeWhile isBlank).length := by
    rw [h.rest, takeWhile_toLower isBlank_toLower, List.length_map]
  rw [Cursor.skipBlanks, Cursor.skipBlanks, hrun]
  exact h.advance _

/-- **Cursors beside each other have like tokens** and are beside each other after them. -/
theorem Beside.nexts (h : Beside c d) : Likeness.smallForm.Nexts Beside c.next d.next := by
  have hskip := h.skipBlanks
  have hscan' := scanToken_toLower c.skipBlanks.rest
  rw [← hskip.rest] at hscan'
  cases hscan : scanToken c.skipBlanks.rest with
  | error f =>
    rw [hscan] at hscan'
    rw [next_of_scanToken_error hscan, next_of_scanToken_error hscan', hskip.index]
    exact .fault ⟨rfl, .of_begins rfl _⟩
  | ok found =>
    obtain ⟨kind, width⟩ := found
    rw [hscan] at hscan'
    rw [next_of_scanToken hscan, next_of_scanToken hscan', hskip.index, hskip.rest]
    refine .token ⟨rfl, ?_, rfl⟩ fun _ => hskip.advance width
    show String.ofList _ = Reckoner.smallForm (String.ofList _)
    rw [smallForm_ofList, List.map_take]

end Cursor

end Reckoner
