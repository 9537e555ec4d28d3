import Reckoner.Proofs.Token.Tiling

/-! # What spans cover

A span says where a token, or the fault in its place, stands in the text. This file says which characters
those are.

* **`Covers`** — the characters of a span (`Cursor.covers`: those between two cursors).
* **`Cursor.Meets`** — a token that is read after others.
* **`Cursor.lexeme_of_next`** — the text of operators and brackets.
* **`Cursor.Meets.covers`, `Cursor.covers_parens`, `Cursor.covers_call`** — the characters of a token,
  of brackets with nothing in them, and of a call.
* **`scanToken_eq_error`** — the two faults of numbers. -/

namespace Reckoner

/-- A span **covers** some characters: these are the ones from its offset on, and as many as it is
long. -/
structure Covers (s : String) (offset length : Nat) (x : List Char) : Prop where
  size : length = x.length
  characters : (s.toList.drop offset).take length = x

namespace Cursor

variable {c c' c'' : Cursor} {t : Token} {ts : List Token} {x : List Char}

/-! ## Between two cursors -/

/-- What is between two cursors takes up the places between them. -/
theorem index_add_length (between : c.rest = x ++ c'.rest) (same : c'.source = c.source) :
    c.index + x.length = c'.index := by
  have hlength := congrArg List.length between
  rw [List.length_append, c.length_rest, c'.length_rest, same] at hlength
  have hc := c.index_le
  have hc' := c'.index_le
  rw [same] at hc'
  omega

/-- **A span from one cursor to another** covers what is between them. -/
theorem covers (between : c.rest = x ++ c'.rest) (same : c'.source = c.source) :
    Covers c.source c.index (c'.index - c.index) x := by
  have hlength : c'.index - c.index = x.length := by
    rw [← index_add_length between same, Nat.add_sub_cancel_left]
  refine ⟨hlength, ?_⟩
  rw [hlength, ← c.rest_eq, between, List.take_left]

/-- What a cursor skips are blanks. -/
theorem exists_blanks (c : Cursor) :
    ∃ blanks, c.rest = blanks ++ c.skipBlanks.rest ∧ ∀ b ∈ blanks, isBlank b = true := by
  refine ⟨c.rest.takeWhile isBlank, ?_, fun b hb => List.all_eq_true.mp List.all_takeWhile b hb⟩
  rw [skipBlanks, rest_advance, drop_length_takeWhile, List.takeWhile_append_dropWhile]

/-- After its blanks, a token is what is between the cursors before and after it. -/
theorem rest_of_next (read : c.next = (.ok t, c')) :
    c.skipBlanks.rest = t.literal.toList ++ c'.rest ∧ c.skipBlanks.index = t.offset ∧
      c'.index = t.stop ∧ c'.source = c.source := by
  obtain ⟨-, -, -, -, -, hindex, -⟩ := exists_text_of_next read
  obtain ⟨width, -, hliteral, hoffset, rfl⟩ := scanToken_of_next read
  refine ⟨?_, hoffset.symm, hindex, rfl⟩
  rw [hliteral, String.toList_ofList, rest_advance, List.take_append_drop]

/-- Something is between the cursors before and after several tokens. -/
theorem Passes.exists_between (h : Passes c ts c') : ∃ x, c.rest = x ++ c'.rest := by
  induction h with
  | @nil c => exact ⟨[], rfl⟩
  | @cons c c' c'' t ts read inner rest ih =>
    obtain ⟨blanks, hblanks, -⟩ := c.exists_blanks
    obtain ⟨hrest, -⟩ := rest_of_next read
    obtain ⟨x, hx⟩ := ih
    exact ⟨blanks ++ t.literal.toList ++ x, by simp only [hblanks, hrest, hx, List.append_assoc]⟩

/-! ## Tokens -/

/-- A token **is met** after others in a text. -/
def Meets (s : String) (before : List Token) (t : Token) : Prop :=
  ∃ c c', (atStart s).Passes before c ∧ c.next = (.ok t, c')

/-- **The span of a token** covers its literal. -/
theorem Meets.covers {s : String} {before : List Token} (h : Meets s before t) :
    Covers s t.offset t.literal.length t.literal.toList := by
  obtain ⟨c, c', hpasses, read⟩ := h
  obtain ⟨hrest, hoffset, hstop, hsource⟩ := rest_of_next read
  have hcovers := Cursor.covers hrest hsource
  rw [hoffset, hstop, t.stop_sub_offset, source_skipBlanks, hpasses.source_eq] at hcovers
  exact hcovers

end Cursor

/-- Operators and brackets are read as they are listed. -/
theorem scanToken_eq_lexeme {cs : List Char} {kind : TokenKind} {width : Nat}
    (h : scanToken cs = .ok (kind, width))
    (sign : kind ∉ [.number, .variable, .function, .finish, .illegal]) :
    (cs.take width, kind) ∈ lexemes := by
  have hscans := scans_scanToken cs
  rw [h] at hscans
  cases hscans with
  | lexeme listed begins =>
    obtain ⟨rest, rfl⟩ := begins
    rwa [List.take_left]
  | _ => exact absurd (by decide) sign

/-- An illegal character is read alone. -/
theorem scanToken_eq_illegal {cs : List Char} {width : Nat}
    (h : scanToken cs = .ok (.illegal, width)) : (cs.take width).length = 1 := by
  have hscans := scans_scanToken cs
  rw [h] at hscans
  cases hscans with
  | lexeme listed begins =>
    have legal : ∀ e ∈ lexemes, e.2 ≠ TokenKind.illegal := by decide
    exact absurd rfl (legal _ listed)
  | illegal one =>
    rw [one]
    rfl

/-- The **faults of numbers**: a blank after the letter of an exponent, or a symbol that goes on after
what could be a number. -/
theorem scanToken_eq_error {cs : List Char} {f : ScanFault} (h : scanToken cs = .error f) :
    startsNumber cs = true ∧
      ((∃ e b r, cs.drop (mantissaWidth cs) = e :: b :: r ∧ (e = 'e' ∨ e = 'E') ∧
          isBlank b = true ∧ f = ⟨.exponentSpacing, mantissaWidth cs, 2⟩) ∨
        f = malformedNumber cs) := by
  have hscans := scans_scanToken cs
  rw [h] at hscans
  cases hscans with
  | malformed starts scan =>
    refine ⟨starts, ?_⟩
    have hclose : ∀ width, closeNumber cs width = .error f → f = malformedNumber cs := by
      intro width h
      unfold closeNumber at h
      split at h
      · split at h
        · exact (Except.error.inj h).symm
        · cases h
      · cases h
    simp only [scanNumber] at scan
    split at scan
    · next e r hdrop =>
      split at scan
      · next letter =>
        split at scan
        · next hblank =>
          cases r with
          | nil => cases hblank
          | cons b r => exact .inl ⟨e, b, r, hdrop, letter, hblank, (Except.error.inj scan).symm⟩
        · split at scan
          · exact .inr (Except.error.inj scan).symm
          · exact .inr (hclose _ scan)
      · exact .inr (hclose _ scan)
    · cases scan

/-! ## Brackets and calls -/

namespace Cursor

variable {c c₁ c₂ c₃ c₄ : Cursor} {t name opening closing : Token}

/-- **The text of an operator or bracket** is the one that it is listed with. -/
theorem lexeme_of_next (read : c.next = (.ok t, c₁)) {kind : TokenKind} (hkind : t.kind = kind)
    (sign : kind ∉ [.number, .variable, .function, .finish, .illegal]) :
    (t.literal.toList, kind) ∈ lexemes := by
  obtain ⟨width, hscan, hliteral, -, -⟩ := scanToken_of_next read
  rw [hkind] at hscan
  rw [hliteral, String.toList_ofList]
  exact scanToken_eq_lexeme hscan sign

/-- An opening parenthesis that was read is one in the source. -/
theorem toList_of_openParen (read : c.next = (.ok t, c₁)) (kind : t.kind = .openParen) :
    t.literal.toList = ['('] := by
  have hlexemes : ∀ e ∈ lexemes, e.2 = .openParen → e.1 = ['('] := by decide
  exact hlexemes _ (lexeme_of_next read kind (by decide)) rfl

/-- An opening parenthesis that the parser meets is one in the source. -/
theorem Meets.toList_of_openParen {s : String} {before : List Token} (h : Meets s before t)
    (kind : t.kind = .openParen) : t.literal.toList = ['('] := by
  obtain ⟨c, c', -, read⟩ := h
  exact Cursor.toList_of_openParen read kind

/-- A closing parenthesis that was read is one in the source. -/
theorem toList_of_closeParen (read : c.next = (.ok t, c₁)) (kind : t.kind = .closeParen) :
    t.literal.toList = [')'] := by
  have hlexemes : ∀ e ∈ lexemes, e.2 = .closeParen → e.1 = [')'] := by decide
  exact hlexemes _ (lexeme_of_next read kind (by decide)) rfl

/-- A comma that was read is one in the source. -/
theorem toList_of_comma (read : c.next = (.ok t, c₁)) (kind : t.kind = .comma) :
    t.literal.toList = [','] := by
  have hlexemes : ∀ e ∈ lexemes, e.2 = .comma → e.1 = [','] := by decide
  exact hlexemes _ (lexeme_of_next read kind (by decide)) rfl

/-- A character that no token starts with is read alone. -/
theorem length_of_illegal (read : c.next = (.ok t, c₁)) (kind : t.kind = .illegal) :
    t.literal.length = 1 := by
  obtain ⟨width, hscan, hliteral, -, -⟩ := scanToken_of_next read
  rw [kind] at hscan
  rw [hliteral, String.length_ofList]
  exact scanToken_eq_illegal hscan

/-- **Brackets with nothing in them** cover the blanks between them. -/
theorem covers_parens (first : c₁.next = (.ok opening, c₂)) (opens : opening.kind = .openParen)
    (last : c₂.next = (.ok closing, c₃)) (closes : closing.kind = .closeParen) :
    ∃ blanks, (∀ b ∈ blanks, isBlank b = true) ∧
      Covers c₁.source opening.offset (closing.stop - opening.offset) ('(' :: blanks ++ [')']) := by
  obtain ⟨hopening, hoffset, -, hsource⟩ := rest_of_next first
  obtain ⟨hclosing, -, hstop, hsource'⟩ := rest_of_next last
  obtain ⟨blanks, hrest, hblanks⟩ := c₂.exists_blanks
  have hbetween : c₁.skipBlanks.rest = '(' :: blanks ++ [')'] ++ c₃.rest := by
    rw [hopening, toList_of_openParen first opens, hrest, hclosing, toList_of_closeParen last closes]
    simp only [List.append_assoc, List.cons_append, List.nil_append]
  have hcovers := covers hbetween (hsource'.trans hsource)
  rw [hoffset, hstop, source_skipBlanks] at hcovers
  exact ⟨blanks, hblanks, hcovers⟩

/-- **A call** covers the name of its function, the bracket right after it, and everything up to the
bracket that closes it. -/
theorem covers_call (first : c.next = (.ok name, c₁)) (kind : name.kind = .function)
    (second : c₁.next = (.ok opening, c₂)) (opens : opening.kind = .openParen) {inside : List Token}
    (inner : c₂.Passes inside c₃) (last : c₃.next = (.ok closing, c₄))
    (closes : closing.kind = .closeParen) :
    ∃ arguments, Covers c.source name.offset (closing.stop - name.offset)
      (name.literal.toList ++ '(' :: arguments ++ [')']) := by
  obtain ⟨hname, hoffset, -, hsource⟩ := rest_of_next first
  obtain ⟨hopening, -, -, hsource'⟩ := rest_of_next second
  obtain ⟨hclosing, -, hstop, hsource''⟩ := rest_of_next last
  obtain ⟨x, hx⟩ := inner.exists_between
  obtain ⟨blanks, hrest, -⟩ := c₃.exists_blanks
  -- no blank is between the name and the bracket
  obtain ⟨blanks', hrest', hblanks'⟩ := c₁.exists_blanks
  have hdirect : blanks' = [] := by
    obtain ⟨width, hscan, -, -, rfl⟩ := scanToken_of_next first
    rw [kind] at hscan
    obtain ⟨after, hafter⟩ := scanToken_eq_function hscan
    rw [rest_advance, hafter] at hrest'
    cases blanks' with
    | nil => rfl
    | cons b blanks' =>
      obtain ⟨rfl, -⟩ := List.cons.inj hrest'
      exact absurd (hblanks' _ (List.mem_cons_self ..)) (by decide)
  rw [hdirect, List.nil_append] at hrest'
  have hbetween : c.skipBlanks.rest =
      name.literal.toList ++ '(' :: (x ++ blanks) ++ [')'] ++ c₄.rest := by
    rw [hname, hrest', hopening, toList_of_openParen second opens, hx, hrest, hclosing,
      toList_of_closeParen last closes]
    simp only [List.append_assoc, List.cons_append, List.nil_append]
  have hsame : c₄.source = c.skipBlanks.source := by
    rw [hsource'', inner.source_eq, hsource', hsource, source_skipBlanks]
  have hcovers := covers hbetween hsame
  rw [hoffset, hstop, source_skipBlanks] at hcovers
  exact ⟨x ++ blanks, hcovers⟩

end Cursor

end Reckoner
