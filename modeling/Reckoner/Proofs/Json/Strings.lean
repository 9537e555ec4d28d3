import Mathlib.Data.Nat.Digits.Defs
import Reckoner.Json.Printer
import Reckoner.Json.Reader

/-! # JSON strings are read back

Every text is written as a JSON string of ASCII characters, and the string is read as the same text,
whatever the text holds: quotes, control characters, or characters that take two code units.

* **`numberInBase?_hexDigits`** — hexadecimal digits are read as the number they were written for.
* **`Json.scanString_escapeChar`** — one character.
* **`Json.scanString_escaped`** — a text up to the closing quote. -/

namespace Reckoner

/-! ## Hexadecimal digits -/

/-- A digit reads back. -/
@[simp] theorem digitValue?_digitChar {d : Nat} (h : d < 16) :
    digitValue? 16 (Nat.digitChar d) = some d := by
  have hall : ∀ d < 16, digitValue? 16 (Nat.digitChar d) = some d := by decide
  exact hall d h

/-- One more digit multiplies by the base. -/
@[simp] theorem numberInBase?_concat (base : Nat) (cs : List Char) (c : Char) :
    numberInBase? base (cs ++ [c]) = (numberInBase? base cs).bind fun n =>
      (digitValue? base c).map (base * n + ·) := by
  rw [numberInBase?, numberInBase?, List.foldlM_append]
  cases List.foldlM (fun n c => (digitValue? base c).map (base * n + ·)) 0 cs with
  | none => rfl
  | some n =>
    cases hc : digitValue? base c <;> simp [hc]

/-- **The digits of a number read back**. -/
@[simp] theorem numberInBase?_toDigits (n : Nat) : numberInBase? 16 (Nat.toDigits 16 n) = some n := by
  induction n using Nat.strongRecOn with
  | ind n ih =>
    by_cases hn : n < 16
    · rw [Nat.toDigits_of_lt_base hn, ← List.nil_append [n.digitChar], numberInBase?_concat,
        digitValue?_digitChar hn]
      simp [numberInBase?]
    · have hlt : n / 16 < n := by omega
      rw [Nat.toDigits_of_base_le (by decide) (by omega), numberInBase?_concat, ih _ hlt,
        digitValue?_digitChar (Nat.mod_lt n (by decide))]
      exact congrArg some (Nat.div_add_mod n 16)

/-- Zeros before them change nothing. -/
@[simp] theorem numberInBase?_replicate_append (k : Nat) (cs : List Char) :
    numberInBase? 16 (List.replicate k '0' ++ cs) = numberInBase? 16 cs := by
  induction k with
  | zero => rfl
  | succ k ih => exact ih

/-- **Hexadecimal digits are read back**, with zeros before them or not. -/
@[simp] theorem numberInBase?_hexDigits (width n : Nat) : numberInBase? 16 (hexDigits width n) = some n :=
  (numberInBase?_replicate_append _ _).trans (numberInBase?_toDigits n)

/-- Digits are filled up to their width. -/
@[simp] theorem length_hexDigits {width n : Nat} (hwidth : 0 < width) (hn : n < 16 ^ width) :
    (hexDigits width n).length = width := by
  have hdigits := (Nat.length_toDigits_le_iff (by decide) hwidth).mpr hn
  rw [hexDigits, List.length_append, List.length_replicate]
  omega

/-- A short number has four digits. -/
theorem exists_hexDigits {n : Nat} (hn : n < 0x10000) : ∃ a b c d, hexDigits 4 n = [a, b, c, d] := by
  have hlength : (hexDigits 4 n).length = 4 := length_hexDigits (by decide) hn
  match hexDigits 4 n, hlength with
  | [a, b, c, d], _ => exact ⟨a, b, c, d, rfl⟩

namespace Json

/-! ## Characters -/

/-- The code points of characters leave out the halves of pairs. -/
theorem toNat_cases (c : Char) : c.toNat < 0xd800 ∨ 0xdfff < c.toNat ∧ c.toNat < 0x110000 := c.valid

/-- A quotation mark ends a text. -/
@[simp] theorem scanString_close (read rest : List Char) :
    scanString read ('"' :: rest) = some (String.ofList read.reverse, rest) := by
  rw [scanString]

/-- A plain character is read as it is. -/
@[simp] theorem scanString_plain {c : Char} (quote : c ≠ '"') (backslash : c ≠ '\\') (size : 0x20 ≤ c.toNat)
    (read rest : List Char) : scanString read (c :: rest) = scanString (c :: read) rest := by
  rw [scanString, if_neg (Nat.not_lt.mpr size)]
  all_goals simp [quote, backslash]

/-- A short escape is read as what it stands for. -/
@[simp] theorem scanString_short {c x : Char} (h : shortEscape? c = some x) (read rest : List Char) :
    scanString read ('\\' :: c :: rest) = scanString (x :: read) rest := by
  have hu : c ≠ 'u' := by
    rintro rfl
    cases h
  rw [scanString, h]
  all_goals simp [hu]

/-- A code unit that begins no pair is a character of its own. -/
@[simp] theorem scanString_unit {n : Nat} (hn : n < 0x10000) (single : n < 0xd800 ∨ 0xdc00 ≤ n)
    (read rest : List Char) :
    scanString read (escapeUnit n ++ rest) = scanString (unitChar n :: read) rest := by
  obtain ⟨a, b, c, d, hdigits⟩ := exists_hexDigits hn
  have hvalue : numberInBase? 16 [a, b, c, d] = some n := by
    rw [← hdigits]
    exact numberInBase?_hexDigits 4 n
  have hpair : ∀ low, pairOf? n low = none := fun low => if_neg (by omega)
  rw [escapeUnit, hdigits]
  show scanString read ('\\' :: 'u' :: a :: b :: c :: d :: rest) = _
  by_cases another : ∃ e f g h rest', rest = '\\' :: 'u' :: e :: f :: g :: h :: rest'
  · -- another code unit follows, which is no part of this character
    obtain ⟨e, f, g, h, rest', rfl⟩ := another
    have hnone : (numberInBase? 16 [e, f, g, h]).bind (pairOf? n) = none := by
      cases numberInBase? 16 [e, f, g, h] with
      | none => rfl
      | some low => exact hpair low
    rw [scanString, hvalue]
    simp only [hnone]
  · rw [scanString, hvalue]
    intro e f g h rest' hrest
    exact another ⟨e, f, g, h, rest', hrest⟩

/-- Two code units that form a pair are one character. -/
@[simp] theorem scanString_pair {high low : Nat} {c : Char} (hhigh : high < 0x10000) (hlow : low < 0x10000)
    (hpair : pairOf? high low = some c) (read rest : List Char) :
    scanString read (escapeUnit high ++ escapeUnit low ++ rest) = scanString (c :: read) rest := by
  obtain ⟨a, b, c', d, hdigits⟩ := exists_hexDigits hhigh
  obtain ⟨e, f, g, h, hdigits'⟩ := exists_hexDigits hlow
  have hvalue : numberInBase? 16 [a, b, c', d] = some high := by
    rw [← hdigits]
    exact numberInBase?_hexDigits 4 high
  have hvalue' : (numberInBase? 16 [e, f, g, h]).bind (pairOf? high) = some c := by
    rw [← hdigits', numberInBase?_hexDigits]
    exact hpair
  rw [escapeUnit, escapeUnit, hdigits, hdigits']
  show scanString read ('\\' :: 'u' :: a :: b :: c' :: d :: '\\' :: 'u' :: e :: f :: g :: h :: rest) = _
  rw [scanString, hvalue]
  simp only [hvalue']

/-- The two code units of a character beyond the basic plane form a pair, and the character is that
of the pair. -/
@[simp] theorem pairOf?_eq_some {c : Char} (h : 0x10000 ≤ c.toNat) :
    pairOf? (0xd800 + (c.toNat - 0x10000) / 0x400) (0xdc00 + (c.toNat - 0x10000) % 0x400) = some c := by
  have hmax := toNat_cases c
  have hrange : 0xd800 ≤ 0xd800 + (c.toNat - 0x10000) / 0x400 ∧
      0xd800 + (c.toNat - 0x10000) / 0x400 < 0xdc00 ∧
      0xdc00 ≤ 0xdc00 + (c.toNat - 0x10000) % 0x400 ∧
      0xdc00 + (c.toNat - 0x10000) % 0x400 < 0xe000 := by omega
  have hcode : 0x10000 + (0xd800 + (c.toNat - 0x10000) / 0x400 - 0xd800) * 0x400 +
      (0xdc00 + (c.toNat - 0x10000) % 0x400 - 0xdc00) = c.toNat := by omega
  rw [pairOf?, if_pos hrange, hcode, Char.ofNat_toNat]

/-- A character of the basic plane is no half of a pair. -/
@[simp] theorem unitChar_toNat (c : Char) : unitChar c.toNat = c := by
  have hvalid := toNat_cases c
  rw [unitChar, if_neg (by omega), Char.ofNat_toNat]

/-- **Every character is read back.** -/
@[simp] theorem scanString_escapeChar (c : Char) (read rest : List Char) :
    scanString read (escapeChar c ++ rest) = scanString (c :: read) rest := by
  have hshort : ∀ x, shortEscape? x = some c →
      scanString read (['\\', x] ++ rest) = scanString (c :: read) rest :=
    fun x hx => scanString_short hx read rest
  rw [escapeChar]
  split_ifs with hquote hnewline hreturn htab hback hfeed hplain hplane
  · obtain rfl | rfl := hquote
    · exact hshort _ rfl
    · exact hshort _ rfl
  · exact hshort _ (by rw [hnewline]; rfl)
  · exact hshort _ (by rw [hreturn]; rfl)
  · exact hshort _ (by rw [htab]; rfl)
  · exact hshort _ (by rw [hback]; rfl)
  · exact hshort _ (by rw [hfeed]; rfl)
  · rw [not_or] at hquote
    exact scanString_plain hquote.1 hquote.2 hplain.1 read rest
  · have hvalid := toNat_cases c
    rw [scanString_unit hplane (by omega), unitChar_toNat]
  · have hmax := toNat_cases c
    exact scanString_pair (by omega) (by omega) (pairOf?_eq_some (Nat.le_of_not_lt hplane)) read rest

/-- **Every text is read back**, up to the quote that closes it. -/
@[simp] theorem scanString_escaped (cs read rest : List Char) :
    scanString read (cs.flatMap escapeChar ++ '"' :: rest) =
      some (String.ofList (read.reverse ++ cs), rest) := by
  induction cs generalizing read with
  | nil =>
    rw [List.append_nil]
    exact scanString_close read rest
  | cons c cs ih =>
    rw [List.flatMap_cons, List.append_assoc, scanString_escapeChar, ih, List.reverse_cons,
      List.append_assoc, List.singleton_append]

end Json

end Reckoner
