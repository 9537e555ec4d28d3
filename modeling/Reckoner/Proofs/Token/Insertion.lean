import Mathlib.Data.List.Find
import Reckoner.Proofs.Token.MaximalMunch
import Reckoner.Proofs.Token.Spans

/-! # A blank in the middle of a text

The scanner looks one character further than the token that it reads. So a blank that is written into a
text changes no token that ends before the character in front of it.

* **`insertBlank`** — a text with one more blank in it.
* **`scanToken_congr`** — a token is read alike in texts that go on with the same character.
* **`Cursor.Parted`** — cursors at the same place of a text and of the text with the blank.
* **`Cursor.Parted.passes`** — the tokens that they both pass. -/

namespace Reckoner

/-- A text with **one more blank** after so many characters. -/
def insertBlank (s : String) (i : Nat) : String :=
  String.ofList (s.toList.take i ++ ' ' :: s.toList.drop i)

/-! ## One character further -/

section Congruence

variable {x y y' : List Char}

/-- What begins with no more than one character after `x` is seen alike. -/
theorem take_append_of_head?_eq (head : y'.head? = y.head?) {n : Nat} (hn : n ≤ x.length + 1) :
    (x ++ y').take n = (x ++ y).take n := by
  have hone : y'.take (n - x.length) = y.take (n - x.length) := by
    have hshort : n - x.length = 0 ∨ n - x.length = 1 := by omega
    rcases hshort with hzero | hone
    · rw [hzero, List.take_zero, List.take_zero]
    · rw [hone, List.take_one, List.take_one, head]
  rw [List.take_append, List.take_append, hone]

/-- A run that ends with `x` ends there again. -/
theorem takeWhile_append_of_head?_eq {p : Char → Bool} (head : y'.head? = y.head?)
    (h : ((x ++ y).takeWhile p).length = x.length) :
    (x ++ y).takeWhile p = x ∧ (x ++ y').takeWhile p = x := by
  have hrun : (x ++ y).takeWhile p = x := by
    rw [List.prefix_iff_eq_take.mp (List.takeWhile_prefix p), h, List.take_left]
  have hall : ∀ c ∈ x, p c = true := by
    intro c hc
    rw [← hrun] at hc
    exact List.all_eq_true.mp List.all_takeWhile c hc
  refine ⟨hrun, ?_⟩
  rw [List.takeWhile_append_of_pos hall] at hrun ⊢
  have hnone : y.takeWhile p = [] := List.append_right_eq_self.mp hrun
  -- the character after `x` stops the run
  cases y' with
  | nil => rw [List.takeWhile_nil, List.append_nil]
  | cons c r' =>
    cases y with
    | nil => cases head
    | cons c₁ r =>
      obtain rfl : c = c₁ := Option.some.inj head
      have hc : p c = false := by
        refine Bool.eq_false_iff.mpr fun hc => ?_
        rw [List.takeWhile_cons_of_pos hc] at hnone
        cases hnone
      rw [List.takeWhile_cons_of_neg (Bool.eq_false_iff.mp hc), List.append_nil]

/-- Whether a number starts depends on one character after a text that is not used up, so the part after it
counts by its head alone. -/
theorem startsNumber_congr (nonempty : x ≠ []) (head : y'.head? = y.head?) :
    startsNumber (x ++ y') = startsNumber (x ++ y) := by
  obtain ⟨c, r, rfl⟩ := List.exists_cons_of_ne_nil nonempty
  by_cases hpoint : c = '.'
  · subst hpoint
    cases r with
    | cons d r => rfl
    | nil =>
      -- a digit after the point
      cases y <;> cases y' <;> cases head <;> rfl
  · rw [List.cons_append, List.cons_append, startsNumber_cons hpoint, startsNumber_cons hpoint]

/-- A number that is read to its end is a numeral, and nothing goes on with it. -/
theorem numeral_of_scanNumber (starts : startsNumber (x ++ y) = true)
    (scan : scanNumber (x ++ y) = .ok x.length) :
    Numeral x ∧ ∀ c ∈ y.head?, isNameChar c = false := by
  obtain ⟨m, n, -, hn, hspaced, hunspaced⟩ := exists_longest_numeral starts
  have unspaced : ¬ SpacedExponent (x ++ y) m := by
    intro spaced
    rw [(hspaced spaced).2] at scan
    cases scan
  have hclose := hunspaced unspaced
  rw [scan] at hclose
  have hlength : x.length = n.length := closeNumber_eq_ok hclose.symm
  obtain rfl : n = x := by
    rw [List.prefix_iff_eq_take.mp hn.starts, ← hlength, List.take_left]
  refine ⟨hn.shaped, fun c hc => Bool.eq_false_iff.mpr fun hname => ?_⟩
  obtain ⟨r, rfl⟩ := List.head?_eq_some_iff.mp hc
  rw [closeNumber_of_goesOn ⟨c, r, rfl, hname⟩] at hclose
  cases hclose

/-- The kind of a name depends on the character after it alone. -/
theorem nameKind_congr (head : y'.head? = y.head?) : nameKind y' = nameKind y := by
  cases y with
  | nil =>
    cases y' with
    | nil => rfl
    | cons c r => cases head
  | cons c r =>
    cases y' with
    | nil => cases head
    | cons c' r' =>
      obtain rfl : c' = c := Option.some.inj head
      unfold nameKind
      split <;> simp_all

/-- The same operator is found. -/
theorem find?_lexemes_congr (nonempty : x ≠ []) (head : y'.head? = y.head?) :
    lexemes.find? (fun (text, _) => text.isPrefixOf (x ++ y')) =
      lexemes.find? (fun (text, _) => text.isPrefixOf (x ++ y)) := by
  refine List.find?_congr fun e he => ?_
  have hlength := length_of_mem_lexemes e he
  have hpos : 0 < x.length := List.length_pos_iff.mpr nonempty
  have hseen := take_append_of_head?_eq (x := x) head (show e.1.length ≤ x.length + 1 by omega)
  show e.1.isPrefixOf (x ++ y') = e.1.isPrefixOf (x ++ y)
  rw [Bool.eq_iff_iff, List.isPrefixOf_iff_prefix, List.isPrefixOf_iff_prefix,
    List.prefix_iff_eq_take, List.prefix_iff_eq_take, hseen]

/-- **A token is read alike** in two texts that begin with it and go on with the same character. -/
theorem scanToken_congr {kind : TokenKind} (nonempty : x ≠ []) (head : y'.head? = y.head?)
    (h : scanToken (x ++ y) = .ok (kind, x.length)) : scanToken (x ++ y') = .ok (kind, x.length) := by
  have hstarts := startsNumber_congr nonempty head
  have hlexeme := find?_lexemes_congr nonempty head
  by_cases starts : startsNumber (x ++ y) = true
  · -- a number ends where nothing goes on with it
    rw [scanToken_of_startsNumber starts] at h
    cases scan : scanNumber (x ++ y) with
    | error f =>
      rw [scan] at h
      cases h
    | ok width =>
      rw [scan] at h
      obtain ⟨rfl, rfl⟩ := Prod.mk.inj (Except.ok.inj h)
      obtain ⟨hnumeral, stop⟩ := numeral_of_scanNumber starts scan
      rw [← head] at stop
      exact hnumeral.scanToken_eq stop
  · obtain ⟨c, r, rfl⟩ := List.exists_cons_of_ne_nil nonempty
    simp only [List.cons_append] at hstarts hlexeme starts h ⊢
    by_cases hname : isNameStart c = true
    · -- a name ends where its run does
      rw [scanToken_of_isNameStart hname] at h ⊢
      obtain ⟨hkind, hwidth⟩ := Prod.mk.inj (Except.ok.inj h)
      rw [← List.cons_append] at hkind hwidth ⊢
      obtain ⟨hrun, hrun'⟩ := takeWhile_append_of_head?_eq head hwidth
      rw [← drop_length_takeWhile, hrun, List.drop_left] at hkind
      rw [← drop_length_takeWhile, hrun', List.drop_left, nameKind_congr head, hkind]
    · rw [scanToken, if_neg starts, if_neg hname] at h
      rwa [scanToken, hstarts, if_neg starts, if_neg hname, hlexeme]

end Congruence

/-! ## Cursors before the blank -/

namespace Cursor

/-- Two cursors stand at the same place of a text and of the text with a blank, with the characters `x`
between them and the blank. -/
structure Parted (x y : List Char) (c d : Cursor) : Prop where
  index : d.index = c.index
  whole : c.rest = x ++ y
  apart : d.rest = x ++ ' ' :: y

variable {x y : List Char} {c c' d : Cursor} {t : Token} {ts : List Token}

/-- The starts of a text and of the text with a blank at `i`: the first `i` characters are between them and
the blank. -/
theorem parted_atStart (s : String) (i : Nat) :
    Parted (s.toList.take i) (s.toList.drop i) (.atStart s) (.atStart (insertBlank s i)) where
  index := rfl
  whole := (List.take_append_drop i s.toList).symm
  apart := String.toList_ofList

/-- What the scanner is given when a token is read, and what it measures. -/
theorem scanToken_literal (read : c.next = (.ok t, c')) :
    scanToken (t.literal.toList ++ c'.rest) = .ok (t.kind, t.literal.toList.length) := by
  obtain ⟨hrest, -⟩ := rest_of_next read
  obtain ⟨width, hscan, hliteral, -, -⟩ := scanToken_of_next read
  have hwidth := (scanToken_eq_ok c.head_skipBlanks hscan).1
  rw [← hrest, hscan, hliteral, String.toList_ofList, ← hwidth]

/-- **A token** that ends before the character in front of the blank is read alike. -/
theorem Parted.next (h : Parted x y c d) (read : c.next = (.ok t, c')) (inner : t.kind ≠ .finish)
    (early : c'.index < c.index + x.length) :
    ∃ d' x', d.next = (.ok t, d') ∧ Parted x' y c' d' ∧
      c'.index + x'.length = c.index + x.length := by
  obtain ⟨blanks, hrest, hblank, hvisible, hoffset, hindex, hfinish⟩ := exists_text_of_next read
  have hne : t.literal.toList ≠ [] := fun hnil =>
    inner (hfinish.mpr (String.toList_eq_nil_iff.mp hnil))
  have hstop : c'.index = c.index + blanks.length + t.literal.toList.length := by
    rw [hindex, Token.stop, hoffset, String.length_toList]
  -- what is before the blank goes on after the token
  obtain ⟨x', rfl⟩ : blanks ++ t.literal.toList <+: x := by
    have htoken : blanks ++ t.literal.toList <+: c.rest :=
      ⟨c'.rest, by rw [hrest, List.append_assoc]⟩
    have hbefore : x <+: c.rest := ⟨y, h.whole.symm⟩
    refine List.prefix_of_prefix_length_le htoken hbefore ?_
    rw [List.length_append]
    omega
  rw [List.length_append, List.length_append] at early
  have hrest' : c'.rest = x' ++ y := by
    have hwhole := h.whole
    rw [hrest, List.append_assoc, List.append_assoc] at hwhole
    exact List.append_cancel_left (List.append_cancel_left hwhole)
  have hhead : (x' ++ ' ' :: y).head? = c'.rest.head? := by
    obtain ⟨z, r, rfl⟩ := List.exists_cons_of_ne_nil (l := x') (List.ne_nil_of_length_pos (by omega))
    rw [hrest']
    rfl
  have hscan := scanToken_congr hne hhead (scanToken_literal read)
  have happart : d.rest = blanks ++ (t.literal.toList ++ (x' ++ ' ' :: y)) := by
    rw [h.apart, List.append_assoc, List.append_assoc]
  obtain ⟨d', hnext, hd', hindex'⟩ := next_of_rest happart hblank hne
    (fun z hz => hvisible z (List.mem_of_mem_head? hz)) hscan
  rw [String.ofList_toList, h.index, ← hoffset] at hnext
  refine ⟨d', x', hnext, ⟨?_, hrest', hd'⟩, ?_⟩
  · rw [hindex', hstop, h.index]
  · rw [hstop, List.length_append, List.length_append]
    omega

/-- Cursors go forward. -/
theorem Passes.index_le (h : c.Passes ts c') : c.index ≤ c'.index := by
  obtain ⟨between, hbetween⟩ := h.exists_between
  have hlength := index_add_length hbetween h.source_eq
  omega

/-- **The tokens before the blank** are passed alike, up to the character in front of it. -/
theorem Parted.passes (h : Parted x y c d) (passes : c.Passes ts c')
    (early : c'.index < c.index + x.length) :
    ∃ d' x', d.Passes ts d' ∧ Parted x' y c' d' ∧ c'.index + x'.length = c.index + x.length := by
  induction passes generalizing x d with
  | nil => exact ⟨d, x, .nil, h, rfl⟩
  | cons read inner rest ih =>
    have hle := rest.index_le
    obtain ⟨d₁, x₁, hnext, h₁, hlength⟩ := h.next read inner (by omega)
    obtain ⟨d', x', hpasses, h', hlength'⟩ := ih h₁ (by omega)
    exact ⟨d', x', .cons hnext inner hpasses, h', hlength'.trans hlength⟩

end Cursor

end Reckoner
