import Mathlib.Data.List.Find
import Reckoner.Proofs.Token.Spelling

/-! # A comma ends every token

No token goes on over a comma, and the scanner looks no further than to it. So a text that is not yet
used up has the same first token, or the same fault in its place, when a comma and any other text are
written after it.

* **`scanToken_append_comma`** — the first token of a text before a comma.
* **`Cursor.Before`** — two cursors at the same place, one of them in a text that goes on with a comma.
* **`Cursor.Before.next`** — their next tokens, up to the end of the shorter text. -/

namespace Reckoner

variable {cs : List Char} (u : List Char)

/-! ## Runs of characters -/

/-- A run of characters does not go on over one that is not of its kind. -/
@[simp] theorem takeWhile_append_cons {p : Char → Bool} {x : Char} (stop : p x = false) (cs u : List Char) :
    (cs ++ x :: u).takeWhile p = cs.takeWhile p := by
  induction cs with
  | nil =>
    rw [List.nil_append, List.takeWhile_cons_of_neg (Bool.eq_false_iff.mp stop), List.takeWhile_nil]
  | cons c cs ih => rw [List.cons_append, List.takeWhile_cons, List.takeWhile_cons, ih]

/-- A run at the head of a text is not longer than the text. -/
theorem length_takeWhile_le (p : Char → Bool) (cs : List Char) :
    (cs.takeWhile p).length ≤ cs.length :=
  (List.takeWhile_prefix p).length_le

/-- What a text is a prefix of does not depend on what comes after a character that is not in the text. -/
theorem isPrefixOf_append_cons {text : List Char} {y : Char} (free : y ∉ text) (cs : List Char) :
    text.isPrefixOf (cs ++ y :: u) = text.isPrefixOf cs := by
  induction text generalizing cs with
  | nil => rw [List.isPrefixOf_nil_left, List.isPrefixOf_nil_left]
  | cons x text ih =>
    rw [List.mem_cons, not_or] at free
    cases cs with
    | nil =>
      have hx : (x == y) = false := beq_eq_false_iff_ne.mpr fun h => free.1 h.symm
      rw [List.nil_append, List.isPrefixOf_cons_cons, hx, Bool.false_and]
      rfl
    | cons c cs => rw [List.cons_append, List.isPrefixOf_cons_cons, List.isPrefixOf_cons_cons, ih free.2]

/-! ## Numbers -/

/-- A comma is no sign of an exponent, and it does not change the sign before it. -/
@[simp] theorem signWidth_append_comma (r : List Char) : signWidth (r ++ ',' :: u) = signWidth r := by
  cases r with
  | nil => rfl
  | cons c r =>
    rw [List.cons_append]
    unfold signWidth
    split <;> simp_all

/-- The sign of an exponent lies within the text. -/
theorem signWidth_le (r : List Char) : signWidth r ≤ r.length := by
  obtain ⟨sign, rest, rfl, hwidth, -⟩ := exists_sign r
  rw [hwidth, List.length_append]
  omega

/-- A comma is no blank, and it does not change the first character of a text before it. -/
@[simp] theorem startsBlank_append_comma (r : List Char) : startsBlank (r ++ ',' :: u) = startsBlank r := by
  cases r with
  | nil => exact (by decide : isBlank ',' = false)
  | cons c r => rfl

/-- Whether a number starts a text that is not used up does not depend on a character after it that is no
digit: only a lone point looks at the next character. -/
theorem startsNumber_append_cons {y : Char} (stop : y.isDigit = false) (hcs : cs ≠ []) :
    startsNumber (cs ++ y :: u) = startsNumber cs := by
  obtain ⟨c, r, rfl⟩ := List.exists_cons_of_ne_nil hcs
  by_cases hpoint : c = '.'
  · subst hpoint
    -- a point begins a number when a digit is next
    cases r with
    | nil => exact stop
    | cons d r => rfl
  · rw [List.cons_append, startsNumber_cons hpoint, startsNumber_cons hpoint]

/-- The run that a malformed number is reported with ends before a comma. -/
@[simp] theorem malformedNumber_append_comma (cs : List Char) :
    malformedNumber (cs ++ ',' :: u) = malformedNumber cs := by
  have hcomma : isNameChar ',' = false := by decide
  rw [malformedNumber, malformedNumber, takeWhile_append_cons hcomma]

/-- The mantissa lies within the text. -/
theorem mantissaWidth_le (cs : List Char) : mantissaWidth cs ≤ cs.length := by
  have hwhole := length_takeWhile_le Char.isDigit cs
  rw [mantissaWidth]
  split
  · next r hr =>
    have hlength := congrArg List.length hr
    have hfraction := length_takeWhile_le Char.isDigit r
    rw [List.length_drop, List.length_cons] at hlength
    omega
  · exact hwhole

/-- A mantissa ends before a comma. -/
@[simp] theorem mantissaWidth_append_comma (cs : List Char) :
    mantissaWidth (cs ++ ',' :: u) = mantissaWidth cs := by
  have hcomma : Char.isDigit ',' = false := by decide
  rw [mantissaWidth, mantissaWidth, takeWhile_append_cons hcomma,
    List.drop_append_of_le_length (length_takeWhile_le _ _)]
  cases cs.drop (cs.takeWhile Char.isDigit).length with
  | nil => rfl
  | cons c r =>
    by_cases hpoint : c = '.'
    · subst hpoint
      show _ + 1 + ((r ++ ',' :: u).takeWhile Char.isDigit).length = _ + 1 + _
      rw [takeWhile_append_cons hcomma]
    · rw [List.cons_append]
      split
      · next heq => exact absurd (List.cons.inj heq).1 hpoint
      · split
        · next heq => exact absurd (List.cons.inj heq).1 hpoint
        · rfl

/-- Nothing goes on with a number at a comma, so a number ends before it as at the end of the text. -/
@[simp] theorem closeNumber_append_comma {width : Nat} (hwidth : width ≤ cs.length) :
    closeNumber (cs ++ ',' :: u) width = closeNumber cs width := by
  rw [closeNumber, closeNumber, List.drop_append_of_le_length hwidth, malformedNumber_append_comma]
  cases cs.drop width with
  | nil => rfl
  | cons c r => rfl

/-- **A number before a comma** is measured, or refused, as at the end of the text. -/
@[simp] theorem scanNumber_append_comma (cs : List Char) :
    scanNumber (cs ++ ',' :: u) = scanNumber cs := by
  have hcomma : Char.isDigit ',' = false := by decide
  have hmantissa := mantissaWidth_le cs
  simp only [scanNumber, mantissaWidth_append_comma, List.drop_append_of_le_length hmantissa,
    malformedNumber_append_comma, closeNumber_append_comma u hmantissa]
  cases hdrop : cs.drop (mantissaWidth cs) with
  | nil =>
    -- a comma is no letter of an exponent
    rw [List.nil_append]
    show (if ',' = 'e' ∨ ',' = 'E' then _ else closeNumber cs (mantissaWidth cs)) = _
    rw [if_neg (by decide), closeNumber, hdrop]
  | cons e r =>
    have hlength := congrArg List.length hdrop
    rw [List.length_drop, List.length_cons] at hlength
    have hsign := signWidth_le r
    have hdigits := length_takeWhile_le Char.isDigit (r.drop (signWidth r))
    rw [List.length_drop] at hdigits
    rw [List.cons_append]
    dsimp only
    rw [signWidth_append_comma, startsBlank_append_comma, List.drop_append_of_le_length hsign,
      takeWhile_append_cons hcomma, closeNumber_append_comma u (by omega)]

/-! ## Tokens -/

/-- A name is a function before an opening parenthesis only, so another character after it changes
nothing. -/
theorem nameKind_append_cons {y : Char} (other : y ≠ '(') (r : List Char) :
    nameKind (r ++ y :: u) = nameKind r := by
  cases r with
  | nil =>
    rw [List.nil_append]
    unfold nameKind
    split
    · next heq => exact absurd (List.cons.inj heq).1 other
    · rfl
  | cons c r =>
    rw [List.cons_append]
    unfold nameKind
    split <;> simp_all

/-- A text that is not used up begins with the same operator before a comma. -/
@[simp] theorem find?_lexemes_append_comma (hcs : cs ≠ []) :
    lexemes.find? (fun (text, _) => text.isPrefixOf (cs ++ ',' :: u)) =
      lexemes.find? (fun (text, _) => text.isPrefixOf cs) := by
  obtain ⟨c, r, rfl⟩ := List.exists_cons_of_ne_nil hcs
  -- a comma is an operator by itself, and in no other one
  have hlexemes : ∀ e ∈ lexemes, e.1 ≠ [] ∧ ',' ∉ e.1.tail := by decide
  refine List.find?_congr fun e he => ?_
  obtain ⟨hne, hfree⟩ := hlexemes e he
  obtain ⟨text, kind⟩ := e
  obtain ⟨x, text, rfl⟩ := List.exists_cons_of_ne_nil hne
  replace hfree : ',' ∉ text := hfree
  show (x :: text).isPrefixOf (c :: r ++ ',' :: u) = (x :: text).isPrefixOf (c :: r)
  rw [List.cons_append, List.isPrefixOf_cons_cons, List.isPrefixOf_cons_cons,
    isPrefixOf_append_cons u hfree]

/-- **The first token of a text** that is not used up is the same before a comma. -/
@[simp] theorem scanToken_append_comma (hcs : cs ≠ []) : scanToken (cs ++ ',' :: u) = scanToken cs := by
  have hcomma : isNameChar ',' = false := by decide
  have hwidth := length_takeWhile_le isNameChar cs
  have hstarts := startsNumber_append_cons u (y := ',') rfl hcs
  have hnumber := scanNumber_append_comma u cs
  have hname := takeWhile_append_cons hcomma cs u
  have hkind := nameKind_append_cons u (y := ',') (by decide) (cs.drop (cs.takeWhile isNameChar).length)
  have hlexeme := find?_lexemes_append_comma u hcs
  rw [← List.drop_append_of_le_length hwidth] at hkind
  obtain ⟨c, r, rfl⟩ := List.exists_cons_of_ne_nil hcs
  rw [List.cons_append] at hstarts hnumber hname hkind hlexeme ⊢
  simp only [scanToken, hstarts, hnumber, hname, hkind, hlexeme]

namespace Cursor

/-- A cursor stands **before** a comma when another one, at the same place of a text that goes on with
a comma and `u`, has the same characters before it. -/
structure Before (u : List Char) (c d : Cursor) : Prop where
  index : d.index = c.index
  rest : d.rest = c.rest ++ ',' :: u

variable {u} {c d : Cursor}

/-- The starts of a text and of the text with a comma and `u`. -/
theorem before_atStart (s u : String) :
    Before u.toList (.atStart s) (.atStart (s ++ "," ++ u)) where
  index := rfl
  rest := by simp [atStart]

/-- Cursors stay before the comma while they move within the text. -/
theorem Before.advance (h : Before u c d) {n : Nat} (hn : n ≤ c.rest.length) :
    Before u (c.advance n) (d.advance n) where
  index := by
    show d.index + (d.rest.take n).length = c.index + (c.rest.take n).length
    rw [h.index, h.rest, List.take_append_of_le_length hn]
  rest := by rw [rest_advance, rest_advance, h.rest, List.drop_append_of_le_length hn]

/-- Blanks end before the comma. -/
theorem Before.skipBlanks (h : Before u c d) : Before u c.skipBlanks d.skipBlanks := by
  have hcomma : isBlank ',' = false := by decide
  have hrun : d.rest.takeWhile isBlank = c.rest.takeWhile isBlank := by
    rw [h.rest, takeWhile_append_cons hcomma]
  rw [Cursor.skipBlanks, Cursor.skipBlanks, hrun]
  exact h.advance (length_takeWhile_le isBlank c.rest)

/-- **A token** is also read before a comma, unless it is the end token. -/
theorem Before.next (h : Before u c d) {t : Token} {c' : Cursor} (read : c.next = (.ok t, c'))
    (inner : t.kind ≠ .finish) : ∃ d', d.next = (.ok t, d') ∧ Before u c' d' := by
  have hskip := h.skipBlanks
  obtain ⟨width, hscan, hliteral, hoffset, rfl⟩ := scanToken_of_next read
  have hne : c.skipBlanks.rest ≠ [] := by
    intro hnil
    rw [hnil] at hscan
    exact inner (congrArg Prod.fst (Except.ok.inj hscan)).symm
  have hwidth : width ≤ c.skipBlanks.rest.length := by
    have htaken := (scanToken_eq_ok c.head_skipBlanks hscan).1
    rw [List.length_take] at htaken
    omega
  have hscan' : scanToken d.skipBlanks.rest = .ok (t.kind, width) := by
    rw [hskip.rest, scanToken_append_comma u hne, hscan]
  refine ⟨_, ?_, hskip.advance hwidth⟩
  rw [next_of_scanToken hscan', hskip.rest, List.take_append_of_le_length hwidth, ← hliteral,
    hskip.index, ← hoffset]

/-- **A fault in the place of a token** is also met before a comma. -/
theorem Before.next_error (h : Before u c d) {f : Fault} {c' : Cursor}
    (read : c.next = (.error f, c')) :
    d.next = (.error { f with source := d.source }, d.skipBlanks) := by
  have hskip := h.skipBlanks
  obtain ⟨g, hscan, rfl⟩ := scanToken_of_next_error read
  have hne : c.skipBlanks.rest ≠ [] := by
    intro hnil
    rw [hnil] at hscan
    cases hscan
  have hscan' : scanToken d.skipBlanks.rest = .error g := by
    rw [hskip.rest, scanToken_append_comma u hne, hscan]
  rw [next_of_scanToken_error hscan', hskip.index]

end Cursor

end Reckoner
