import Reckoner.Proofs.Token.Numeral
import Reckoner.Proofs.Token.Sequence

/-! # Tokens tile the expression

Where the tokens of an expression stand. Reading a token takes blanks and then its characters off the
text, and nothing else; so the tokens of an expression, with the blanks between them, are the
expression.

* **`Cursor.exists_text_of_next`** — what one token takes off the text.
* **`Tiles`** — tokens and blanks that fill a stretch of a text, the tokens in order.
* **`Cursor.Yields.tiles`** — the tokens up to the end fill the rest of the text.
* **`tokenize_tiles`** — where the tokens of an expression stand, and where a cursor stands after
  each token. -/

namespace Reckoner

/-! ## The characters of a token -/

/-- The characters of names separate nothing. -/
@[simp] theorem isBlank_eq_false_of_isNameChar {c : Char} (h : isNameChar c = true) :
    isBlank c = false := by
  simp only [isNameChar, isNameStart, Bool.or_eq_true, decide_eq_true_eq] at h
  rcases h with ((h | rfl) | h) | rfl
  · -- letters lie between the ranges of blanks
    have hrange := isAlpha_iff.mp h
    simp only [isBlank, blankTable, CodePoints.mem_cons, CodePoints.mem_nil, Bool.or_eq_false_iff,
      Bool.and_eq_false_iff, decide_eq_false_iff_not, and_true]
    omega
  · decide
  · exact isBlank_eq_false_of_isDigit h
  · decide

/-- **A token is a beginning of the text** that it is scanned from, and no blank is in it. Only the
end token is empty. -/
theorem scanToken_eq_ok {cs : List Char} {kind : TokenKind} {width : Nat}
    (head : ∀ c ∈ cs.head?, isBlank c = false) (h : scanToken cs = .ok (kind, width)) :
    width = (cs.take width).length ∧ (∀ c ∈ cs.take width, isBlank c = false) ∧
      (kind = .finish ↔ cs.take width = []) := by
  cases cs with
  | nil =>
    simp only [scanToken, Except.ok.injEq, Prod.mk.injEq] at h
    obtain ⟨rfl, rfl⟩ := h
    simp
  | cons c r =>
    -- a token of one character at least is not the end token
    have inner : kind = .finish ↔ (c :: r).take width = [] := by
      have hpos := scanToken_width_pos (List.cons_ne_nil c r) h
      constructor
      · rintro rfl
        exact absurd (scanToken_eq_finish h) (List.cons_ne_nil c r)
      · intro hnil
        rw [List.take_eq_nil_iff] at hnil
        rcases hnil with hzero | hnil
        · omega
        · cases hnil
    suffices ∃ text rest, c :: r = text ++ rest ∧ width = text.length ∧
        ∀ x ∈ text, isBlank x = false by
      obtain ⟨text, rest, hsplit, rfl, hblank⟩ := this
      rw [hsplit, List.take_left] at inner ⊢
      exact ⟨rfl, hblank, inner⟩
    -- a name is the longest run of its characters
    have hname : ∃ text rest, c :: r = text ++ rest ∧
        ((c :: r).takeWhile isNameChar).length = text.length ∧ ∀ x ∈ text, isBlank x = false := by
      refine ⟨(c :: r).takeWhile isNameChar, (c :: r).dropWhile isNameChar,
        List.takeWhile_append_dropWhile.symm, rfl, fun x hx => ?_⟩
      exact isBlank_eq_false_of_isNameChar (List.all_eq_true.mp List.all_takeWhile x hx)
    have hscans := scans_scanToken (c :: r)
    rw [h] at hscans
    cases hscans with
    | finish empty => cases empty
    | number starts scan =>
      obtain ⟨text, rest, hsplit, hwidth, hnumeral⟩ := exists_numeral starts scan
      exact ⟨text, rest, hsplit, hwidth,
        fun x hx => isBlank_of_isNumeralChar (hnumeral.isNumeralChar x hx)⟩
    | functionName other opens => exact hname
    | variableName other => exact hname
    | @lexeme text kind listed begins =>
      obtain ⟨rest, hrest⟩ := begins
      have visible : (lexemes.all fun e => e.1.all fun x => !isBlank x) = true := by decide
      refine ⟨text, rest, hrest.symm, rfl, fun x hx => ?_⟩
      have hlexeme := List.all_eq_true.mp visible _ listed
      exact Bool.not_eq_true' _ |>.mp (List.all_eq_true.mp hlexeme x hx)
    | illegal one =>
      -- a character that belongs to no token stands alone, and the blanks have been skipped
      refine ⟨[c], r, rfl, rfl, fun x hx => ?_⟩
      rw [List.mem_singleton.mp hx]
      exact head c rfl

/-! ## One token -/

namespace Cursor

/-- No blank is next after the blanks have been skipped. -/
theorem head_skipBlanks (c : Cursor) : ∀ x ∈ c.skipBlanks.rest.head?, isBlank x = false := by
  intro x hx
  have hnot := List.head?_dropWhile_not isBlank c.rest
  rw [skipBlanks, rest_advance, drop_length_takeWhile] at hx
  rwa [Option.mem_def.mp hx] at hnot

/-- **What one token takes off the text**: blanks, and then its characters, none of them blank. The
cursor then stands at the end of the token. -/
theorem exists_text_of_next {c c' : Cursor} {t : Token} (read : c.next = (.ok t, c')) :
    ∃ blanks, c.rest = blanks ++ (t.literal.toList ++ c'.rest) ∧
      (∀ x ∈ blanks, isBlank x = true) ∧ (∀ x ∈ t.literal.toList, isBlank x = false) ∧
      t.offset = c.index + blanks.length ∧ c'.index = t.stop ∧
      (t.kind = .finish ↔ t.literal = "") := by
  obtain ⟨width, hscan, hliteral, hoffset, rfl⟩ := scanToken_of_next read
  obtain ⟨hwidth, hvisible, hfinish⟩ := scanToken_eq_ok c.head_skipBlanks hscan
  have hall : ∀ x ∈ c.rest.takeWhile isBlank, isBlank x = true :=
    fun x hx => List.all_eq_true.mp List.all_takeWhile x hx
  have hindex : c.skipBlanks.index = c.index + (c.rest.takeWhile isBlank).length := by
    show c.index + (c.rest.take (c.rest.takeWhile isBlank).length).length = _
    rw [List.length_take, Nat.min_eq_left (List.takeWhile_prefix isBlank).length_le]
  refine ⟨c.rest.takeWhile isBlank, ?_, hall, ?_, hoffset.trans hindex, ?_, ?_⟩
  · rw [hliteral, String.toList_ofList, rest_advance, List.take_append_drop, skipBlanks, rest_advance,
      drop_length_takeWhile, List.takeWhile_append_dropWhile]
  · rw [hliteral, String.toList_ofList]
    exact hvisible
  · rw [Token.stop, hliteral, String.length_ofList, hoffset]
    rfl
  · rw [hfinish, hliteral, ← String.ofList_nil, String.ofList_inj]

/-- After the end token nothing is left. -/
theorem rest_of_next_finish {c c' : Cursor} {t : Token} (read : c.next = (.ok t, c'))
    (last : t.kind = .finish) : c'.rest = [] := by
  obtain ⟨width, hscan, -, -, rfl⟩ := scanToken_of_next read
  rw [last] at hscan
  rw [rest_advance, scanToken_eq_finish hscan, List.drop_nil]

/-- Where nothing is left, the end token is met again and again. -/
theorem next_of_rest_nil {c : Cursor} (h : c.rest = []) :
    ∃ t c', c.next = (.ok t, c') ∧ t.kind = .finish := by
  have hblanks : c.skipBlanks.rest = [] := by
    rw [skipBlanks, rest_advance, h, List.drop_nil]
  rw [next, hblanks]
  exact ⟨_, _, rfl, rfl⟩

/-- A cursor with nothing left stands at the end of the expression. -/
@[simp] theorem index_of_rest_nil {c : Cursor} (h : c.rest = []) : c.index = c.source.toList.length := by
  have hlength := c.length_rest
  have hle := c.index_le
  rw [h, List.length_nil] at hlength
  omega

/-- The end token stands at the end of the expression. -/
theorem offset_of_next_finish {c c' : Cursor} {t : Token} (read : c.next = (.ok t, c'))
    (last : t.kind = .finish) : t.offset = c.source.length := by
  obtain ⟨-, -, -, -, -, hindex, hfinish⟩ := exists_text_of_next read
  have hsource : c'.source = c.source := by
    have h := c.source_next
    rwa [read] at h
  have hend := index_of_rest_nil (rest_of_next_finish read last)
  rw [hindex, Token.stop, hfinish.mp last, hsource, String.length_toList] at hend
  exact hend

end Cursor

/-! ## Tilings -/

/-- Tokens **tile** a text from one position to another: they are pieces of the text one after the
other, and everything between them is blank. -/
inductive Tiles (text : List Char) : Nat → List Token → Nat → Prop
  | nil {i : Nat} : Tiles text i [] i
  | cons {i j : Nat} {t : Token} {ts : List Token} (before : i ≤ t.offset)
      (blanks : ∀ k, i ≤ k → k < t.offset → ∀ c ∈ text[k]?, isBlank c = true)
      (piece : t.literal.toList = (text.drop t.offset).take t.literal.length)
      (visible : ∀ c ∈ t.literal.toList, isBlank c = false) (rest : Tiles text t.stop ts j) :
      Tiles text i (t :: ts) j

namespace Tiles

variable {text : List Char} {i j : Nat} {ts : List Token}

/-- Tokens that tile a part of a text go forward. -/
theorem le (h : Tiles text i ts j) : i ≤ j := by
  induction h with
  | nil => exact Nat.le_refl _
  | cons before blanks piece visible rest ih =>
    rw [Token.stop] at ih
    omega

/-- Every token stands between the two positions and is the piece of the text where it stands. -/
theorem of_mem (h : Tiles text i ts j) {t : Token} (ht : t ∈ ts) :
    i ≤ t.offset ∧ t.stop ≤ j ∧ t.literal.toList = (text.drop t.offset).take t.literal.length := by
  induction h with
  | nil => cases ht
  | cons before blanks piece visible rest ih =>
    rcases List.mem_cons.mp ht with rfl | ht
    · exact ⟨before, rest.le, piece⟩
    · obtain ⟨hfirst, hlast, hpiece⟩ := ih ht
      rw [Token.stop] at hfirst
      exact ⟨by omega, hlast, hpiece⟩

/-- The tokens stand one after the other. -/
theorem pairwise (h : Tiles text i ts j) : ts.Pairwise fun t u => t.stop ≤ u.offset := by
  induction h with
  | nil => exact .nil
  | cons before blanks piece visible rest ih =>
    exact .cons (fun u hu => (rest.of_mem hu).1) ih

/-- **Exactly the blanks stand outside the tokens.** -/
theorem isBlank_iff (h : Tiles text i ts j) {k : Nat} (hi : i ≤ k) (hj : k < j) {c : Char}
    (hc : text[k]? = some c) : isBlank c = true ↔ ∀ t ∈ ts, ¬ (t.offset ≤ k ∧ k < t.stop) := by
  induction h with
  | nil => omega
  | @cons i j t ts before blanks piece visible rest ih =>
    rw [List.forall_mem_cons]
    -- before the first token, in it, or after it
    by_cases hbefore : k < t.offset
    · have hafter : ∀ u ∈ ts, ¬ (u.offset ≤ k ∧ k < u.stop) := by
        intro u hu hin
        have hu := (rest.of_mem hu).1
        rw [Token.stop] at hu
        omega
      have hout : ¬ (t.offset ≤ k ∧ k < t.stop) := by omega
      exact ⟨fun _ => ⟨hout, hafter⟩, fun _ => blanks k hi hbefore c hc⟩
    · by_cases hin : k < t.stop
      · have hmem : c ∈ t.literal.toList := by
          rw [piece]
          rw [Token.stop] at hin
          refine List.mem_of_getElem? (i := k - t.offset) ?_
          rw [List.getElem?_take_of_lt (by omega), List.getElem?_drop, ← hc]
          congr 1
          omega
        rw [visible c hmem]
        exact ⟨fun hfalse => absurd hfalse Bool.false_ne_true,
          fun hall => absurd ⟨Nat.le_of_not_lt hbefore, hin⟩ hall.1⟩
      · have hout : ¬ (t.offset ≤ k ∧ k < t.stop) := fun hboth => hin hboth.2
        rw [ih (Nat.le_of_not_lt hin) hj]
        exact ⟨fun hall => ⟨hout, hall⟩, And.right⟩

/-- Every token that is not empty takes a place of its own. -/
theorem length_le (h : Tiles text i ts j) (nonempty : ∀ t ∈ ts, t.literal ≠ "") :
    i + ts.length ≤ j := by
  induction h with
  | nil => exact Nat.le_refl _
  | @cons i j t ts before blanks piece visible rest ih =>
    rw [List.forall_mem_cons] at nonempty
    have hrest := ih nonempty.2
    have hpos : 0 < t.literal.length :=
      Nat.pos_of_ne_zero fun h => nonempty.1 (String.length_eq_zero_iff.mp h)
    rw [Token.stop] at hrest
    rw [List.length_cons]
    omega

/-- The last token ends where the tiled part does. -/
theorem stop_of_last {last : Token} (h : Tiles text i (ts ++ [last]) j) : last.stop = j := by
  induction ts generalizing i with
  | nil =>
    cases h with
    | cons before blanks piece visible rest =>
      cases rest
      rfl
  | cons t ts ih =>
    cases h with
    | cons before blanks piece visible rest => exact ih rest

/-- Without the last token, the others tile what is before it. -/
theorem dropLast {last : Token} (h : Tiles text i (ts ++ [last]) j) :
    ∃ k, k ≤ last.offset ∧ Tiles text i ts k := by
  induction ts generalizing i with
  | nil =>
    cases h with
    | cons before blanks piece visible rest => exact ⟨i, before, .nil⟩
  | cons t ts ih =>
    cases h with
    | cons before blanks piece visible rest =>
      obtain ⟨k, hk, htiles⟩ := ih rest
      exact ⟨k, hk, .cons before blanks piece visible htiles⟩

end Tiles

namespace Cursor

/-- What a token takes off is one tile. -/
theorem tiles_of_next {c c' : Cursor} {t : Token} (read : c.next = (.ok t, c'))
    {ts : List Token} {j : Nat} (rest : Tiles c.source.toList c'.index ts j) :
    Tiles c.source.toList c.index (t :: ts) j := by
  obtain ⟨blanks, hrest, hblank, hvisible, hoffset, hindex, -⟩ := exists_text_of_next read
  have hdrop : c.source.toList.drop t.offset = t.literal.toList ++ c'.rest := by
    rw [hoffset, ← List.drop_drop, ← c.rest_eq, hrest, List.drop_left]
  rw [hindex] at rest
  refine .cons (by omega) ?_ ?_ hvisible rest
  · intro k hk hlt x hx
    -- the characters up to the token are those of the blanks
    refine hblank x (List.mem_of_getElem? (i := k - c.index) ?_)
    have hlength : k - c.index < blanks.length := by omega
    have hplace : c.rest[k - c.index]? = blanks[k - c.index]? := by
      rw [hrest, List.getElem?_append_left hlength]
    rw [← hplace, c.rest_eq, List.getElem?_drop, ← Option.mem_def.mp hx]
    congr 1
    omega
  · rw [hdrop, ← String.length_toList, List.take_left]

/-- **The tokens up to the end fill the rest of the text.** -/
theorem Yields.tiles {c c' : Cursor} {ts : List Token} (h : c.Yields ts c') :
    Tiles c.source.toList c.index ts c.source.length := by
  induction h with
  | @finish c c' t read last =>
    have hsource : c'.source = c.source := by
      have h := c.source_next
      rwa [read] at h
    have hend : c'.index = c.source.length := by
      rw [index_of_rest_nil (rest_of_next_finish read last), hsource, String.length_toList]
    exact tiles_of_next read (hend ▸ .nil)
  | @step c c' c'' t ts read inner rest ih =>
    have hsource : c'.source = c.source := by
      have h := c.source_next
      rwa [read] at h
    rw [hsource] at ih
    exact tiles_of_next read ih

/-- Only the end token is empty. -/
theorem Yields.finish_iff {c c' : Cursor} {ts : List Token} (h : c.Yields ts c') {t : Token}
    (ht : t ∈ ts) : t.kind = .finish ↔ t.literal = "" := by
  induction h with
  | finish read last =>
    obtain rfl := List.mem_singleton.mp ht
    obtain ⟨-, -, -, -, -, -, hfinish⟩ := exists_text_of_next read
    exact hfinish
  | step read inner rest ih =>
    rcases List.mem_cons.mp ht with rfl | ht
    · obtain ⟨-, -, -, -, -, -, hfinish⟩ := exists_text_of_next read
      exact hfinish
    · exact ih ht

/-- The tokens up to the end are those with characters and the empty end token, which stands at the
end of the expression. -/
theorem Yields.exists_nonempty {c c' : Cursor} {ts : List Token} (h : c.Yields ts c') :
    ∃ us, ts = us ++ [⟨.finish, "", c.source.length⟩] ∧
      ∀ t ∈ us, t.kind ≠ .finish ∧ t.literal ≠ "" := by
  obtain ⟨us, last, rfl, hlast, hus⟩ := h.split_finish
  have hblank : last.literal = "" :=
    (h.finish_iff (List.mem_append_right us (List.mem_singleton_self last))).mp hlast
  have hstop : last.stop = c.source.length := h.tiles.stop_of_last
  obtain ⟨kind, literal, offset⟩ := last
  obtain rfl : kind = .finish := hlast
  obtain rfl : literal = "" := hblank
  obtain rfl : offset = c.source.length := hstop
  refine ⟨us, rfl, fun t ht => ⟨hus t ht, fun hempty => ?_⟩⟩
  exact hus t ht ((h.finish_iff (List.mem_append_left _ ht)).mpr hempty)

/-- **No two tokens begin at one place**: each ends before the next begins. -/
theorem Yields.pairwise_offset {c c' : Cursor} {ts : List Token} (h : c.Yields ts c') :
    ts.Pairwise fun t u => t.offset < u.offset ∧ t.stop ≤ u.offset := by
  obtain ⟨us, rfl, hus⟩ := h.exists_nonempty
  have hordered := h.tiles.pairwise
  rw [List.pairwise_append] at hordered ⊢
  obtain ⟨hinner, -, hend⟩ := hordered
  -- every token before another one has characters
  have hbegin : ∀ t ∈ us, t.offset < t.stop := by
    intro t ht
    have hpos : t.literal.length ≠ 0 := fun h => (hus t ht).2 (String.length_eq_zero_iff.mp h)
    rw [Token.stop]
    omega
  refine ⟨?_, List.pairwise_singleton .., ?_⟩
  · exact hinner.imp_of_mem fun ht _ hle => ⟨Nat.lt_of_lt_of_le (hbegin _ ht) hle, hle⟩
  · intro t ht u hu
    have hle := hend t ht u hu
    exact ⟨Nat.lt_of_lt_of_le (hbegin t ht) hle, hle⟩

/-- There are at most as many tokens as characters, and the end token. -/
theorem Yields.length_le {c c' : Cursor} {ts : List Token} (h : c.Yields ts c') :
    ts.length ≤ c.source.length + 1 := by
  obtain ⟨us, rfl, hus⟩ := h.exists_nonempty
  obtain ⟨k, hk, hinit⟩ := h.tiles.dropLast
  have hcount := hinit.length_le fun t ht => (hus t ht).2
  have hend : k ≤ c.source.length := hk
  rw [List.length_append, List.length_singleton]
  omega

/-- The cursor after so many tokens have been asked for. -/
def afterNexts (c : Cursor) : Nat → Cursor
  | 0 => c
  | n + 1 => (c.afterNexts n).next.2

/-- Reading tokens leaves the source of a cursor alone. -/
@[simp] theorem source_afterNexts (c : Cursor) (n : Nat) : (c.afterNexts n).source = c.source := by
  induction n with
  | zero => rfl
  | succ n ih => rw [afterNexts, source_next, ih]

end Cursor

/-- The length of a token's span is the length of its literal. -/
@[simp] theorem Token.stop_sub_offset (t : Token) : t.stop - t.offset = t.literal.length :=
  Nat.add_sub_cancel_left ..

/-- **The tokens of an expression tile it.** They stand in order and apart from each other, each is the
piece of the text where it stands, and all that is outside them is blank. Only the end token is empty;
it stands at the end of the text. However many tokens have been asked for, the next one begins after
blanks only, and the cursor then stands at its end. -/
theorem tokenize_tiles (s : String) :
    (∀ ts, tokenize (some s) = .ok ts →
      (∃ us, ts = us ++ [⟨.finish, "", s.length⟩] ∧ ∀ t ∈ us, t.kind ≠ .finish ∧ t.literal ≠ "") ∧
        (ts.Pairwise fun t u => t.offset < u.offset ∧ t.stop ≤ u.offset) ∧
        (∀ t ∈ ts, t.stop ≤ s.length ∧
          t.literal.toList = (s.toList.drop t.offset).take (t.stop - t.offset)) ∧
        (∀ k c, s.toList[k]? = some c →
          (isBlank c = true ↔ ∀ t ∈ ts, ¬ (t.offset ≤ k ∧ k < t.stop))) ∧
        ts.length ≤ s.length + 1) ∧
    ∀ n t, ((Cursor.atStart s).afterNexts n).next.1 = .ok t →
      ((Cursor.atStart s).afterNexts (n + 1)).index = t.stop ∧
        ((Cursor.atStart s).afterNexts n).index ≤ t.offset ∧
        (∀ k c, ((Cursor.atStart s).afterNexts n).index ≤ k → k < t.offset →
          s.toList[k]? = some c → isBlank c = true) ∧
        t.literal.toList = (s.toList.drop t.offset).take (t.stop - t.offset) := by
  constructor
  · intro ts h
    obtain ⟨_, c', hs, -, hyield⟩ := tokenize_eq_ok_iff.mp h
    cases hs
    have htiles : Tiles s.toList 0 ts s.length := hyield.tiles
    refine ⟨hyield.exists_nonempty, hyield.pairwise_offset, ?_, ?_, hyield.length_le⟩
    · intro t ht
      obtain ⟨-, hle, hpiece⟩ := htiles.of_mem ht
      exact ⟨hle, by rw [t.stop_sub_offset, hpiece]⟩
    · intro k c hc
      have hk : k < s.length := by
        rw [← String.length_toList]
        exact (List.getElem?_eq_some_iff.mp hc).1
      exact htiles.isBlank_iff (Nat.zero_le k) hk hc
  · intro n t h
    have hsource := (Cursor.atStart s).source_afterNexts n
    rw [Cursor.afterNexts]
    generalize (Cursor.atStart s).afterNexts n = c at h hsource ⊢
    have read : c.next = (.ok t, c.next.2) := Prod.ext h rfl
    obtain ⟨-, -, -, -, -, hindex, -⟩ := Cursor.exists_text_of_next read
    have htile : Tiles s.toList c.index [t] c.next.2.index := by
      have h := Cursor.tiles_of_next read .nil
      rwa [hsource] at h
    cases htile with
    | cons before blanks piece visible rest =>
      refine ⟨hindex, before, fun k x hk hlt hx => blanks k hk hlt x hx, ?_⟩
      rw [t.stop_sub_offset]
      exact piece

/-- Blanks may stand between any two tokens but within none, and signs that meet make one token. -/
theorem tokenize_tiles_spaced :
    ∃ ts, tokenize (some " 2e3+-\u3000x ") = .ok ts ∧
      ts = [⟨.number, "2e3", 1⟩, ⟨.plusMinus, "+-", 4⟩, ⟨.variable, "x", 7⟩, ⟨.finish, "", 9⟩] ∧
      ts.Pairwise fun t u => t.offset < u.offset ∧ t.stop ≤ u.offset := by
  have htokens : tokenize (some " 2e3+-\u3000x ") = .ok
      [⟨.number, "2e3", 1⟩, ⟨.plusMinus, "+-", 4⟩, ⟨.variable, "x", 7⟩, ⟨.finish, "", 9⟩] := by
    decide +kernel
  obtain ⟨-, hordered, -⟩ := (tokenize_tiles " 2e3+-\u3000x ").1 _ htokens
  exact ⟨_, htokens, rfl, hordered⟩

end Reckoner
