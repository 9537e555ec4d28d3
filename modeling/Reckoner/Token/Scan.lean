import Reckoner.Fault
import Reckoner.Text.Blank
import Reckoner.Token

/-! # The first token of a text

Which token a text without leading blanks begins with, by maximal munch: the longest number, the
longest name, or the longest operator.

* **`isNameStart`, `isNameChar`** — the characters that names are made of.
* **`mantissaWidth`, `scanNumber`** — the width of the number that a text begins with, or why that
  number is malformed.
* **`scanToken`** — the kind and the width of the first token. The empty text holds the end token,
  of width zero; every other token has at least one character (`scanToken_width_pos`). -/

namespace Reckoner

/-- The code points of capital letters. -/
theorem isUpper_iff {c : Char} : c.isUpper = true ↔ 65 ≤ c.toNat ∧ c.toNat ≤ 90 :=
  decide_eq_true_iff

/-- The code points of small letters. -/
theorem isLower_iff {c : Char} : c.isLower = true ↔ 97 ≤ c.toNat ∧ c.toNat ≤ 122 :=
  (Bool.and_eq_true_iff ..).trans (and_congr decide_eq_true_iff decide_eq_true_iff)

/-- The ASCII letters by their code points. -/
theorem isAlpha_iff {c : Char} :
    c.isAlpha = true ↔ 65 ≤ c.toNat ∧ c.toNat ≤ 90 ∨ 97 ≤ c.toNat ∧ c.toNat ≤ 122 :=
  (Bool.or_eq_true_iff ..).trans (or_congr isUpper_iff isLower_iff)

/-- The characters that a name begins with: the ASCII letters and the underscore. -/
def isNameStart (c : Char) : Bool := c.isAlpha || c = '_'

/-- The characters that a name goes on with: letters, digits and points. -/
def isNameChar (c : Char) : Bool := isNameStart c || c.isDigit || c = '.'

/-- Why no token can be read: the cause and its span, counted from where the token begins. -/
structure ScanFault where
  /-- What is wrong. -/
  cause : Cause
  /-- The characters between the beginning of the token and the fault. -/
  start : Nat
  /-- The number of characters at fault. -/
  length : Nat
  deriving DecidableEq, Repr

/-- The width of `digits`, `digits .`, `digits . digits` or `. digits` at the head of a text. -/
def mantissaWidth (cs : List Char) : Nat :=
  let whole := (cs.takeWhile Char.isDigit).length
  match cs.drop whole with
  | '.' :: r => whole + 1 + (r.takeWhile Char.isDigit).length
  | _ => whole

/-- The fault of a malformed number: it covers the longest run of symbol characters. -/
def malformedNumber (cs : List Char) : ScanFault :=
  let run := cs.takeWhile isNameChar
  ⟨.invalidNumber (String.ofList run), 0, run.length⟩

/-- Accepts a number of the given width unless a symbol character follows it. -/
def closeNumber (cs : List Char) (width : Nat) : Except ScanFault Nat :=
  match cs.drop width with
  | c :: _ => if isNameChar c then .error (malformedNumber cs) else .ok width
  | [] => .ok width

/-- The width of a sign at the head of a text. -/
def signWidth : List Char → Nat
  | '+' :: _ => 1
  | '-' :: _ => 1
  | _ => 0

/-- Whether a text begins with a blank. -/
def startsBlank : List Char → Bool
  | c :: _ => isBlank c
  | [] => false

/-- The width of the number at the head of a text that begins with a digit, or with a point and a
digit: a mantissa and, when a letter `e` follows, an exponent. -/
def scanNumber (cs : List Char) : Except ScanFault Nat :=
  let mantissa := mantissaWidth cs
  match cs.drop mantissa with
  | c :: r =>
    if c = 'e' ∨ c = 'E' then
      let sign := signWidth r
      let digits := ((r.drop sign).takeWhile Char.isDigit).length
      if startsBlank r then .error ⟨.exponentSpacing, mantissa, 2⟩
      else if digits = 0 then .error (malformedNumber cs)
      else closeNumber cs (mantissa + 1 + sign + digits)
    else closeNumber cs mantissa
  | [] => .ok mantissa

/-- Whether a number begins here: a digit, or a point and a digit. -/
def startsNumber : List Char → Bool
  | '.' :: d :: _ => d.isDigit
  | c :: _ => c.isDigit
  | [] => false

/-- A name is a function's when an opening bracket follows it directly. -/
def nameKind (afterName : List Char) : TokenKind :=
  match afterName with
  | '(' :: _ => .function
  | _ => .variable

/-- The **first token** of a text without leading blanks: its kind and width. -/
def scanToken (cs : List Char) : Except ScanFault (TokenKind × Nat) :=
  match cs with
  | [] => .ok (.finish, 0)
  | c :: _ =>
    if startsNumber cs then (scanNumber cs).map fun width => (.number, width)
    else if isNameStart c then
      let width := (cs.takeWhile isNameChar).length
      .ok (nameKind (cs.drop width), width)
    else
      match lexemes.find? fun (text, _) => text.isPrefixOf cs with
      | some (text, kind) => .ok (kind, text.length)
      | none => .ok (.illegal, 1)

/-! ## Progress -/

/-- A number that is closed is as wide as it was. -/
theorem closeNumber_eq_ok {cs : List Char} {width n : Nat} (h : closeNumber cs width = .ok n) :
    n = width := by
  unfold closeNumber at h
  split at h
  · split at h
    · cases h
    · exact (Except.ok.inj h).symm
  · exact (Except.ok.inj h).symm

/-- The mantissa of a number has at least one character. -/
theorem mantissaWidth_pos {cs : List Char} (h : startsNumber cs = true) :
    0 < mantissaWidth cs := by
  cases cs with
  | nil => simp [startsNumber] at h
  | cons c r =>
    by_cases hc : c.isDigit = true
    · have : 0 < ((c :: r).takeWhile Char.isDigit).length := by simp [hc]
      simp only [mantissaWidth]
      split <;> omega
    · have hdot : c = '.' := by
        cases r with
        | nil =>
          by_cases e : c = '.'
          · exact e
          · simp [startsNumber, hc] at h
        | cons d r' =>
          by_cases e : c = '.'
          · exact e
          · simp [startsNumber, e, hc] at h
      subst hdot
      have hw : (('.' :: r).takeWhile Char.isDigit).length = 0 := by simp [hc]
      simp only [mantissaWidth, hw, List.drop_zero]
      omega

/-- A number has a character at least. -/
theorem scanNumber_pos {cs : List Char} {n : Nat} (hs : startsNumber cs = true)
    (h : scanNumber cs = .ok n) : 0 < n := by
  have hm := mantissaWidth_pos hs
  simp only [scanNumber] at h
  split at h
  · split at h
    · split at h
      · cases h
      · split at h
        · cases h
        · have := closeNumber_eq_ok h
          omega
    · have := closeNumber_eq_ok h
      omega
  · cases h
    exact hm

/-- Every token but the end token has at least one character. -/
theorem scanToken_width_pos {cs : List Char} {kind : TokenKind} {width : Nat} (hcs : cs ≠ [])
    (h : scanToken cs = .ok (kind, width)) : 0 < width := by
  cases cs with
  | nil => exact absurd rfl hcs
  | cons c r =>
    simp only [scanToken] at h
    split at h
    · next hs =>
      cases hn : scanNumber (c :: r) with
      | error e => simp [hn, Except.map] at h
      | ok n =>
        simp only [hn, Except.map, Except.ok.injEq, Prod.mk.injEq] at h
        have := scanNumber_pos hs hn
        omega
    · split at h
      · next hl =>
        simp only [Except.ok.injEq, Prod.mk.injEq] at h
        have : isNameChar c = true := by simp [isNameChar, hl]
        have : 0 < ((c :: r).takeWhile isNameChar).length := by simp [this]
        omega
      · split at h
        · next text kind' hf =>
          simp only [Except.ok.injEq, Prod.mk.injEq] at h
          have hmem := List.mem_of_find?_eq_some hf
          have : ∀ e ∈ lexemes, 0 < e.1.length := by decide
          have : 0 < text.length := this _ hmem
          omega
        · simp only [Except.ok.injEq, Prod.mk.injEq] at h
          omega

/-- Only the empty text begins with the end token. -/
theorem scanToken_eq_finish {cs : List Char} {width : Nat}
    (h : scanToken cs = .ok (.finish, width)) : cs = [] := by
  cases cs with
  | nil => rfl
  | cons c r =>
    simp only [scanToken] at h
    split at h
    · cases hn : scanNumber (c :: r) <;> simp [hn, Except.map] at h
    · split at h
      · simp only [Except.ok.injEq, Prod.mk.injEq, nameKind] at h
        have h₁ := h.1
        split at h₁ <;> cases h₁
      · split at h
        · next text kind' hf =>
          simp only [Except.ok.injEq, Prod.mk.injEq] at h
          have hmem := List.mem_of_find?_eq_some hf
          have : ∀ e ∈ lexemes, e.2 ≠ TokenKind.finish := by decide
          exact absurd h.1 (this _ hmem)
        · simp only [Except.ok.injEq, Prod.mk.injEq] at h
          cases h.1

end Reckoner
