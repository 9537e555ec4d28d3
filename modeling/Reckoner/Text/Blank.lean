import Reckoner.Text.CodePoints

/-! # Blank characters

The characters that separate tokens: those of the Unicode separator categories for spaces, lines
and paragraphs, and the control characters that move the cursor or separate records.

* **`isBlank`** — the twenty-nine blank characters.
* **`trimBlank`** — a text without the blanks at its two ends. -/

namespace Reckoner

/-- The ranges of blank characters. -/
def blankTable : CodePoints := [
  (0x9, 0xd), (0x1c, 0x20), (0x85, 0x85), (0xa0, 0xa0), (0x1680, 0x1680), (0x2000, 0x200a),
  (0x2028, 0x2029), (0x202f, 0x202f), (0x205f, 0x205f), (0x3000, 0x3000)]

/-- Whether a character is blank. -/
def isBlank (c : Char) : Bool := blankTable.mem c

/-- A text without the blank characters at its beginning and end. -/
def trimBlank (cs : List Char) : List Char :=
  ((cs.dropWhile isBlank).reverse.dropWhile isBlank).reverse

/-- A digit is not blank. -/
@[simp] theorem isBlank_eq_false_of_isDigit {c : Char} (h : c.isDigit = true) : isBlank c = false := by
  have h₁ : 48 ≤ c.toNat ∧ c.toNat ≤ 57 := by
    simpa [Char.isDigit, UInt32.le_iff_toNat_le] using h
  simp only [isBlank, blankTable, CodePoints.mem_cons, CodePoints.mem_nil, Bool.or_eq_false_iff,
    Bool.and_eq_false_iff, decide_eq_false_iff_not, and_true]
  omega

end Reckoner
