import Reckoner.Proofs.Token.Spelling

/-! # Maximal munch

The scanner measures a number in steps: digits, a point, more digits, a letter and a sign after it. Here
it is compared with the grammar of numerals, which knows no steps: what it measures is the longest prefix
of the text that is a numeral. Names and operators are longest prefixes too.

* **`Longest`** — the longest prefix of a text that has a shape.
* **`longest_mantissa`, `Longest.numeral`** — the longest mantissa, and the longest numeral after it.
* **`exists_longest_numeral`** — what the scanner makes of the longest numeral.
* **`longest_lexeme`** — the first lexeme that a text begins with is the longest.
* **`Munches`** — which token a text begins with, or which fault stands in its place.
* **`Cursor.next_munches`** — every cursor reads its next token so. -/

namespace Reckoner

/-! ## Longest prefixes -/

/-- The **longest prefix** of a text that has a shape. -/
structure Longest (shape : List Char → Prop) (u n : List Char) : Prop where
  shaped : shape n
  starts : n <+: u
  length_le : ∀ n', shape n' → n' <+: u → n'.length ≤ n.length

/-- There is one longest prefix at most. -/
theorem Longest.unique {shape : List Char → Prop} {u n n' : List Char} (h : Longest shape u n)
    (h' : Longest shape u n') : n = n' := by
  have hlength : n.length = n'.length :=
    Nat.le_antisymm (h'.length_le n h.shaped h.starts) (h.length_le n' h'.shaped h'.starts)
  rw [List.prefix_iff_eq_take.mp h.starts, List.prefix_iff_eq_take.mp h'.starts, hlength]

/-- The longest run of characters of a kind. -/
theorem longest_takeWhile (p : Char → Bool) (u : List Char) :
    Longest (fun w => ∀ x ∈ w, p x = true) u (u.takeWhile p) where
  shaped _ hx := List.all_eq_true.mp List.all_takeWhile _ hx
  starts := List.takeWhile_prefix p
  length_le w hw := by
    rintro ⟨rest, rfl⟩
    rw [List.takeWhile_append_of_pos hw, List.length_append]
    exact Nat.le_add_right ..

/-! ## Numbers -/

/-- A number starts with a digit, or with a point and a digit. -/
theorem startsNumber_iff {u : List Char} :
    startsNumber u = true ↔ ∃ d r, d.isDigit = true ∧ (u = d :: r ∨ u = '.' :: d :: r) := by
  constructor
  · intro h
    unfold startsNumber at h
    split at h
    · next d r => exact ⟨d, r, h, .inr rfl⟩
    · next d r _ => exact ⟨d, r, h, .inl rfl⟩
    · cases h
  · rintro ⟨d, r, hd, rfl | rfl⟩
    · have hpoint : d ≠ '.' := by
        rintro rfl
        cases hd
      rwa [startsNumber_cons hpoint]
    · exact hd

/-- A mantissa is not longer than the one that the scanner measures. -/
theorem Mantissa.length_le {m : List Char} (h : Mantissa m) (rest : List Char) :
    m.length ≤ mantissaWidth (m ++ rest) := by
  cases h with
  | whole digits nonempty =>
    have hwhole : m.length ≤ ((m ++ rest).takeWhile Char.isDigit).length :=
      (longest_takeWhile Char.isDigit (m ++ rest)).length_le m digits (List.prefix_append m rest)
    rw [mantissaWidth]
    split
    · omega
    · exact hwhole
  | @pointed ds es digits fraction nonempty =>
    have hpoint : ∀ c ∈ ('.' :: (es ++ rest)).head?, c.isDigit = false := by
      intro c hc
      cases hc
      rfl
    obtain ⟨htake, -⟩ := digits.takeWhile_append hpoint
    have hfraction : es.length ≤ ((es ++ rest).takeWhile Char.isDigit).length :=
      (longest_takeWhile Char.isDigit (es ++ rest)).length_le es fraction (List.prefix_append es rest)
    simp only [mantissaWidth, List.append_assoc, List.cons_append, htake, List.drop_left,
      List.length_append, List.length_cons]
    omega

/-- **The scanner measures the longest mantissa.** -/
theorem longest_mantissa {u : List Char} (h : startsNumber u = true) :
    ∃ m rest, u = m ++ rest ∧ mantissaWidth u = m.length ∧ Longest Mantissa u m := by
  obtain ⟨m, rest, rfl, hwidth, hmantissa⟩ := exists_mantissa h
  refine ⟨m, rest, rfl, hwidth, hmantissa, List.prefix_append m rest, ?_⟩
  rintro m' hm' ⟨rest', hsplit⟩
  rw [← hwidth, ← hsplit]
  exact hm'.length_le rest'

/-- The sign and the digits of an exponent are those that the scanner measures, or fewer digits. -/
theorem ExponentPart.exists_digits {e : Char} {x r : List Char} (h : ExponentPart x)
    (nonempty : x ≠ []) (starts : x <+: e :: r) :
    (e = 'e' ∨ e = 'E') ∧ ∃ ds, ds ≠ [] ∧ Digits ds ∧ x = e :: (r.take (signWidth r) ++ ds) ∧
      ds <+: r.drop (signWidth r) := by
  cases h with
  | absent => exact absurd rfl nonempty
  | @present e' sign ds letter signed digits hne =>
    obtain ⟨rest, hrest⟩ := starts
    obtain ⟨rfl, hr⟩ := List.cons.inj hrest
    have hsplit : sign ++ (ds ++ rest) = r := (List.append_assoc ..).symm.trans hr
    rw [← hsplit]
    obtain ⟨hsign, -⟩ := signWidth_append signed digits hne rest
    rw [hsign, List.take_left, List.drop_left]
    exact ⟨letter, ds, hne, digits, rfl, List.prefix_append ds rest⟩

/-- No exponent begins without digits after its letter. -/
theorem longest_exponent_absent {rest : List Char}
    (h : ∀ e r, rest = e :: r → (e = 'e' ∨ e = 'E') →
      (r.drop (signWidth r)).takeWhile Char.isDigit = []) : Longest ExponentPart rest [] := by
  refine ⟨.absent, List.nil_prefix, ?_⟩
  intro x hx starts
  by_cases nonempty : x = []
  · rw [nonempty]
  · -- the digits of an exponent would have been measured
    cases rest with
    | nil => exact absurd (List.prefix_nil.mp starts) nonempty
    | cons e r =>
      obtain ⟨letter, ds, hne, digits, -, hds⟩ := hx.exists_digits nonempty starts
      have hlength := (longest_takeWhile Char.isDigit (r.drop (signWidth r))).length_le ds digits hds
      rw [h e r rfl letter] at hlength
      exact absurd (List.length_eq_zero_iff.mp (Nat.le_zero.mp hlength)) hne

/-- An exponent goes on to the last of its digits. -/
theorem longest_exponent_present {e : Char} {r : List Char} (letter : e = 'e' ∨ e = 'E')
    (nonempty : (r.drop (signWidth r)).takeWhile Char.isDigit ≠ []) :
    Longest ExponentPart (e :: r)
      (e :: (r.take (signWidth r) ++ (r.drop (signWidth r)).takeWhile Char.isDigit)) := by
  have hdigits := longest_takeWhile Char.isDigit (r.drop (signWidth r))
  obtain ⟨sign, after, hr, hsign, signed⟩ := exists_sign r
  refine ⟨.present letter ?_ hdigits.shaped nonempty, ?_, ?_⟩
  · subst hr
    rwa [hsign, List.take_left]
  · obtain ⟨rest, hrest⟩ := hdigits.starts
    refine ⟨rest, ?_⟩
    rw [List.cons_append, List.append_assoc, hrest, List.take_append_drop]
  · intro x hx starts
    by_cases absent : x = []
    · rw [absent]
      exact Nat.zero_le _
    · obtain ⟨-, ds, -, digits, rfl, hds⟩ := hx.exists_digits absent starts
      have hlength := hdigits.length_le ds digits hds
      simp only [List.length_cons, List.length_append]
      omega

/-- **The longest numeral** is the longest mantissa with the longest exponent after it. -/
theorem Longest.numeral {m rest x : List Char} (hm : Longest Mantissa (m ++ rest) m)
    (hwidth : mantissaWidth (m ++ rest) = m.length) (hx : Longest ExponentPart rest x) :
    Longest Numeral (m ++ rest) (m ++ x) := by
  refine ⟨.intro hm.shaped hx.shaped, (List.prefix_append_right_inj m).mpr hx.starts, ?_⟩
  intro n hn starts
  rw [List.length_append]
  cases hn with
  | @intro m' x' mantissa exponent =>
    by_cases absent : x' = []
    · rw [absent, List.append_nil] at starts ⊢
      exact Nat.le_trans (hm.length_le m' mantissa starts) (Nat.le_add_right ..)
    · -- the letter of an exponent ends the longest mantissa
      obtain ⟨rest', hsplit⟩ := starts
      have hstop : ∀ c ∈ (x' ++ rest').head?, c.isDigit = false ∧ c ≠ '.' := by
        intro c hc
        obtain ⟨y, ys, rfl⟩ := List.exists_cons_of_ne_nil absent
        exact exponent.stop c hc
      rw [List.append_assoc] at hsplit
      have hsame : m'.length = m.length := by
        rw [← hwidth, ← hsplit, mantissa.width_eq hstop]
      obtain ⟨rfl, rfl⟩ := List.append_inj hsplit hsame
      have hlength := hx.length_le x' exponent (List.prefix_append x' rest')
      rw [List.length_append]
      omega

/-- A prefix **goes on** when a letter, a digit, a point or an underscore comes right after it. -/
def GoesOn (u n : List Char) : Prop := ∃ x r, u = n ++ x :: r ∧ isNameChar x = true

/-- A mantissa has a **spaced exponent** when the letter of an exponent and a blank come after it. -/
def SpacedExponent (u m : List Char) : Prop :=
  ∃ e b r, u = m ++ e :: b :: r ∧ (e = 'e' ∨ e = 'E') ∧ isBlank b = true

/-- A numeral that something goes on with is malformed. -/
@[simp] theorem closeNumber_of_goesOn {u n : List Char} (h : GoesOn u n) :
    closeNumber u n.length = .error (malformedNumber u) := by
  obtain ⟨x, r, rfl, hx⟩ := h
  rw [closeNumber, List.drop_left]
  exact if_pos hx

/-- A numeral that nothing goes on with is a number. -/
theorem closeNumber_of_not_goesOn {u n : List Char} (starts : n <+: u) (h : ¬ GoesOn u n) :
    closeNumber u n.length = .ok n.length := by
  obtain ⟨rest, rfl⟩ := starts
  rw [closeNumber, List.drop_left]
  cases rest with
  | nil => rfl
  | cons x r => exact if_neg fun hx => h ⟨x, r, rfl, hx⟩

/-- **What the scanner makes of the longest numeral**: the number ends there, unless something goes on
with it. A blank after the letter of an exponent is a fault of its own. -/
theorem exists_longest_numeral {u : List Char} (h : startsNumber u = true) :
    ∃ m n, Longest Mantissa u m ∧ Longest Numeral u n ∧
      (SpacedExponent u m → GoesOn u n ∧ scanNumber u = .error ⟨.exponentSpacing, m.length, 2⟩) ∧
      (¬ SpacedExponent u m → scanNumber u = closeNumber u n.length) := by
  obtain ⟨m, rest, rfl, hwidth, hm⟩ := longest_mantissa h
  refine ⟨m, ?_⟩
  simp only [scanNumber, hwidth, List.drop_left]
  cases rest with
  | nil =>
    -- nothing is left for an exponent
    have hn := hm.numeral hwidth (longest_exponent_absent fun e r hr _ =>
      absurd hr.symm (List.cons_ne_nil e r))
    have hclose : closeNumber (m ++ []) (m ++ []).length = .ok m.length := by
      rw [closeNumber, List.drop_length, List.append_nil]
    refine ⟨m ++ [], hm, hn, ?_, fun _ => hclose.symm⟩
    rintro ⟨e, b, r, hsplit, -, -⟩
    cases List.append_cancel_left hsplit
  | cons e r =>
    by_cases letter : e = 'e' ∨ e = 'E'
    · have hname : isNameChar e = true := by rcases letter with rfl | rfl <;> decide
      simp only [if_pos letter]
      by_cases nodigits : (r.drop (signWidth r)).takeWhile Char.isDigit = []
      · -- the letter goes on with the mantissa
        have hn := hm.numeral hwidth (longest_exponent_absent fun e' r' hr _ => by
          obtain ⟨-, rfl⟩ := List.cons.inj hr
          exact nodigits)
        rw [List.append_nil] at hn
        have hgoes : GoesOn (m ++ e :: r) m := ⟨e, r, rfl, hname⟩
        refine ⟨m, hm, hn, ?_, ?_⟩
        · rintro ⟨e', b, r', hsplit, -, blank⟩
          obtain ⟨-, rfl⟩ := List.cons.inj (List.append_cancel_left hsplit)
          exact ⟨hgoes, if_pos blank⟩
        · intro unspaced
          have hblank : startsBlank r = false := by
            cases r with
            | nil => rfl
            | cons b r => exact Bool.eq_false_iff.mpr fun blank => unspaced ⟨e, b, r, rfl, letter, blank⟩
          rw [hblank, if_neg Bool.false_ne_true, nodigits, List.length_nil, if_pos rfl,
            closeNumber_of_goesOn hgoes]
      · have hn := hm.numeral hwidth (longest_exponent_present letter nodigits)
        -- a sign or a digit is no blank
        have hblank : startsBlank r = false := by
          obtain ⟨sign, after, rfl, hsign, signed⟩ := exists_sign r
          rw [hsign, List.drop_left] at nodigits
          have hafter : after.takeWhile Char.isDigit ++ after.dropWhile Char.isDigit = after :=
            List.takeWhile_append_dropWhile
          have hstart := (signWidth_append signed (digits_takeWhile after) nodigits
            (after.dropWhile Char.isDigit)).2
          rwa [hafter] at hstart
        refine ⟨_, hm, hn, ?_, fun _ => ?_⟩
        · rintro ⟨e', b, r', hsplit, -, blank⟩
          obtain ⟨-, rfl⟩ := List.cons.inj (List.append_cancel_left hsplit)
          rw [startsBlank, blank] at hblank
          cases hblank
        · have hlength : ((r.drop (signWidth r)).takeWhile Char.isDigit).length ≠ 0 :=
            fun hzero => nodigits (List.length_eq_zero_iff.mp hzero)
          rw [hblank, if_neg Bool.false_ne_true, if_neg hlength]
          congr 1
          obtain ⟨sign, after, rfl, hsign, -⟩ := exists_sign r
          simp only [hsign, List.take_left, List.length_append, List.length_cons]
          omega
    · -- without the letter there is no exponent
      have hn := hm.numeral hwidth (longest_exponent_absent fun e' r' hr letter' => by
        obtain ⟨rfl, -⟩ := List.cons.inj hr
        exact absurd letter' letter)
      rw [List.append_nil] at hn
      refine ⟨m, hm, hn, ?_, fun _ => if_neg letter⟩
      rintro ⟨e', b, r', hsplit, letter', -⟩
      obtain ⟨rfl, -⟩ := List.cons.inj (List.append_cancel_left hsplit)
      exact absurd letter' letter

/-- A text that a number starts is read as a number, or refused as one. -/
@[simp] theorem scanToken_of_startsNumber {u : List Char} (h : startsNumber u = true) :
    scanToken u = (scanNumber u).map fun width => (.number, width) := by
  cases u with
  | nil => cases h
  | cons x r => exact if_pos h

/-! ## Names -/

/-- A name is that of a function when a bracket comes right after it, and of a variable otherwise. -/
theorem nameKind_cases (after : List Char) :
    (nameKind after = .function ↔ ∃ r, after = '(' :: r) ∧
      (nameKind after ≠ .function → nameKind after = .variable) := by
  unfold nameKind
  split
  · next r => exact ⟨⟨fun _ => ⟨r, rfl⟩, fun _ => rfl⟩, fun h => absurd rfl h⟩
  · next hno =>
    refine ⟨⟨fun h => ?_, ?_⟩, fun _ => rfl⟩
    · cases h
    · rintro ⟨r, rfl⟩
      exact absurd rfl (hno r)

/-- A name is the longest run of its characters. -/
@[simp] theorem scanToken_of_isNameStart {x : Char} (h : isNameStart x = true) (r : List Char) :
    scanToken (x :: r) = .ok (nameKind ((x :: r).dropWhile isNameChar),
      ((x :: r).takeWhile isNameChar).length) := by
  simp only [scanToken, startsNumber_of_isNameStart h, Bool.false_eq_true, if_false, h, if_true,
    drop_length_takeWhile]

/-! ## Operators -/

/-- A lexeme is found before those that it begins with. -/
theorem pairwise_lexemes : lexemes.Pairwise fun e f => f.1.length ≤ e.1.length := by decide

/-- A spelling has one kind in the table of lexemes. -/
theorem kind_of_mem_lexemes :
    ∀ e ∈ lexemes, ∀ f ∈ lexemes, e.1 = f.1 → e.2 = f.2 := by decide

/-- **The first lexeme that a text begins with** is the longest one. -/
theorem longest_lexeme {u text : List Char} {kind : TokenKind}
    (h : lexemes.find? (fun (text, _) => text.isPrefixOf u) = some (text, kind)) :
    (text, kind) ∈ lexemes ∧ Longest (fun w => ∃ k, (w, k) ∈ lexemes) u text := by
  obtain ⟨hbegins, before, after, hsplit, hbefore⟩ := List.find?_eq_some_iff_append.mp h
  have hmem : (text, kind) ∈ lexemes := List.mem_of_find?_eq_some h
  refine ⟨hmem, ⟨kind, hmem⟩, List.isPrefixOf_iff_prefix.mp hbegins, ?_⟩
  rintro w ⟨k, hw⟩ starts
  have hordered := pairwise_lexemes
  rw [hsplit] at hw hordered
  rcases List.mem_append.mp hw with hw | hw
  · -- what comes before it is no prefix
    have hno : (!w.isPrefixOf u) = true := hbefore _ hw
    rw [List.isPrefixOf_iff_prefix.mpr starts] at hno
    cases hno
  · rcases List.mem_cons.mp hw with heq | hw
    · exact Nat.le_of_eq (congrArg List.length (Prod.mk.inj heq).1)
    · exact (List.pairwise_cons.mp (List.pairwise_append.mp hordered).2.1).1 _ hw

/-- A lexeme has one character or two. -/
theorem length_of_mem_lexemes : ∀ e ∈ lexemes, e.1.length = 1 ∨ e.1.length = 2 := by decide

/-- A lexeme of two characters is found, and one of a single character where none of two is. -/
theorem find?_lexemes_of_begins {u text : List Char} {kind : TokenKind} (listed : (text, kind) ∈ lexemes)
    (starts : text <+: u)
    (longest : text.length = 2 ∨ ∀ e ∈ lexemes, e.1.length = 2 → ¬ e.1 <+: u) :
    lexemes.find? (fun (text, _) => text.isPrefixOf u) = some (text, kind) := by
  cases h : lexemes.find? fun (text, _) => text.isPrefixOf u with
  | none =>
    have hno := List.find?_eq_none.mp h _ listed
    exact absurd (List.isPrefixOf_iff_prefix.mpr starts) hno
  | some found =>
    obtain ⟨text', kind'⟩ := found
    obtain ⟨hmem, hlongest⟩ := longest_lexeme h
    have hle : ∀ w, (∃ k, (w, k) ∈ lexemes) → w <+: u → w.length ≤ text.length := by
      rintro w ⟨k, hw⟩ hstarts
      have hone : w.length = 1 ∨ w.length = 2 := length_of_mem_lexemes _ hw
      have htext : text.length = 1 ∨ text.length = 2 := length_of_mem_lexemes _ listed
      rcases longest with htwo | hno
      · omega
      · have hshort : w.length ≠ 2 := fun htwo => hno _ hw htwo hstarts
        omega
    have htext : text' = text := hlongest.unique ⟨⟨kind, listed⟩, starts, hle⟩
    have hkind : kind' = kind := kind_of_mem_lexemes _ hmem _ listed htext
    rw [htext, hkind]

/-- An operator or a bracket is read. -/
theorem scanToken_of_begins {u text : List Char} {kind : TokenKind} (listed : (text, kind) ∈ lexemes)
    (starts : text <+: u)
    (longest : text.length = 2 ∨ ∀ e ∈ lexemes, e.1.length = 2 → ¬ e.1 <+: u) :
    scanToken u = .ok (kind, text.length) := by
  have hfound := find?_lexemes_of_begins listed starts longest
  obtain ⟨rest, rfl⟩ := starts
  exact scanToken_of_find? listed hfound

/-- A character that begins no number, no name and no lexeme is illegal. -/
theorem scanToken_of_begins_none {x : Char} {r : List Char} (number : startsNumber (x :: r) = false)
    (name : isNameStart x = false) (lexeme : ∀ e ∈ lexemes, ¬ e.1 <+: x :: r) :
    scanToken (x :: r) = .ok (.illegal, 1) := by
  have hnone : lexemes.find? (fun (text, _) => text.isPrefixOf (x :: r)) = none := by
    refine List.find?_eq_none.mpr fun e he => ?_
    exact fun hbegins => lexeme e he (List.isPrefixOf_iff_prefix.mp hbegins)
  simp only [scanToken, number, Bool.false_eq_true, if_false, name, hnone]

/-! ## The next token -/

/-- **Maximal munch**: the token that the text `u` begins with, or the fault in its place, when that text
begins at the place `o` of the expression `s`. -/
structure Munches (s : String) (o : Nat) (u : List Char) (result : Except Fault Token) : Prop where
  /-- A number is the longest numeral, if nothing goes on with it. A blank after the letter of an exponent
  is one fault, and whatever else goes on is another. -/
  number : ∀ d r, d.isDigit = true → (u = d :: r ∨ u = '.' :: d :: r) →
    ∃ m n, Longest Mantissa u m ∧ Longest Numeral u n ∧
      (result = .ok ⟨.number, String.ofList n, o⟩ ↔ ¬ GoesOn u n) ∧
      (GoesOn u n → SpacedExponent u m →
        result = .error ⟨.exponentSpacing, s, (o + m.length : Nat), 2⟩) ∧
      (GoesOn u n → ¬ SpacedExponent u m → ∃ run, Longest (fun w => ∀ x ∈ w, isNameChar x = true) u run ∧
        result = .error ⟨.invalidNumber (String.ofList run), s, o, run.length⟩) ∧
      ∃ value, Binary64.read? (String.ofList n) = some value
  /-- A name is the longest run of letters, digits, points and underscores. It is that of a function when
  a bracket comes right after it. -/
  name : ∀ x r, u = x :: r → isNameStart x = true →
    ∃ run kind, Longest (fun w => ∀ x ∈ w, isNameChar x = true) u run ∧
      result = .ok ⟨kind, String.ofList run, o⟩ ∧
      (kind = .function ↔ ∃ after, u = run ++ '(' :: after) ∧ (kind ≠ .function → kind = .variable)
  /-- An operator or a bracket is a lexeme of two characters, or one of a single character where none of
  two is. -/
  lexeme : ∀ text kind, (text, kind) ∈ lexemes → text <+: u →
    (text.length = 2 ∨ ∀ e ∈ lexemes, e.1.length = 2 → ¬ e.1 <+: u) →
    result = .ok ⟨kind, String.ofList text, o⟩
  /-- Any other character is illegal. -/
  illegal : ∀ x r, u = x :: r → (∀ d r, d.isDigit = true → u ≠ d :: r ∧ u ≠ '.' :: d :: r) →
    isNameStart x = false → (∀ e ∈ lexemes, ¬ e.1 <+: u) →
    result = .ok ⟨.illegal, String.singleton x, o⟩

namespace Cursor

variable {c : Cursor}

/-- The next token, or fault, where a number starts after the blanks. -/
theorem next_of_startsNumber (h : startsNumber c.skipBlanks.rest = true) :
    c.next.1 = match scanNumber c.skipBlanks.rest with
      | .ok width =>
        .ok ⟨.number, String.ofList (c.skipBlanks.rest.take width), c.skipBlanks.index⟩
      | .error f => .error ⟨f.cause, c.source, (c.skipBlanks.index + f.start : Nat), f.length⟩ := by
  have hscan := scanToken_of_startsNumber h
  cases hnumber : scanNumber c.skipBlanks.rest with
  | ok width =>
    rw [hnumber] at hscan
    exact congrArg Prod.fst (next_of_scanToken hscan)
  | error f =>
    rw [hnumber] at hscan
    exact congrArg Prod.fst (next_of_scanToken_error hscan)

end Cursor

/-- **Every cursor reads its next token by maximal munch**, once it has skipped the blanks before it. -/
theorem Cursor.next_munches (c : Cursor) :
    Munches c.source c.skipBlanks.index c.skipBlanks.rest c.next.1 where
  number := by
    intro d r hd hu
    have hstarts : startsNumber c.skipBlanks.rest = true := startsNumber_iff.mpr ⟨d, r, hd, hu⟩
    obtain ⟨m, n, hm, hn, hspaced, hunspaced⟩ := exists_longest_numeral hstarts
    have hnext := next_of_startsNumber hstarts
    have hread : ∃ value, Binary64.read? (String.ofList n) = some value := by
      have hnumeral : Numeral (String.ofList n).toList := by
        rw [String.toList_ofList]
        exact hn.shaped
      exact ⟨_, hnumeral.read?_eq⟩
    have herror : GoesOn c.skipBlanks.rest n → SpacedExponent c.skipBlanks.rest m →
        c.next.1 = .error ⟨.exponentSpacing, c.source, (c.skipBlanks.index + m.length : Nat), 2⟩ := by
      intro _ spaced
      rw [hnext, (hspaced spaced).2]
      rfl
    have hinvalid : GoesOn c.skipBlanks.rest n → ¬ SpacedExponent c.skipBlanks.rest m →
        c.next.1 = .error ⟨.invalidNumber (String.ofList (c.skipBlanks.rest.takeWhile isNameChar)),
          c.source, c.skipBlanks.index, (c.skipBlanks.rest.takeWhile isNameChar).length⟩ := by
      intro goes unspaced
      rw [hnext, hunspaced unspaced, closeNumber_of_goesOn goes]
      rfl
    refine ⟨m, n, hm, hn, ⟨?_, ?_⟩, herror, ?_, hread⟩
    · -- whatever goes on with the numeral is a fault
      intro hok goes
      by_cases spaced : SpacedExponent c.skipBlanks.rest m
      · rw [herror goes spaced] at hok
        cases hok
      · rw [hinvalid goes spaced] at hok
        cases hok
    · intro stops
      have unspaced : ¬ SpacedExponent c.skipBlanks.rest m := fun spaced => stops (hspaced spaced).1
      rw [hnext, hunspaced unspaced, closeNumber_of_not_goesOn hn.starts stops]
      dsimp only
      rw [← List.prefix_iff_eq_take.mp hn.starts]
    · intro goes unspaced
      exact ⟨_, longest_takeWhile isNameChar _, hinvalid goes unspaced⟩
  name := by
    intro x r hu hx
    have hrun := longest_takeWhile isNameChar c.skipBlanks.rest
    have hscan := scanToken_of_isNameStart hx r
    rw [← hu] at hscan
    obtain ⟨hfunction, hvariable⟩ := nameKind_cases (c.skipBlanks.rest.dropWhile isNameChar)
    refine ⟨_, _, hrun, ?_, hfunction.trans ?_, hvariable⟩
    · rw [next_of_scanToken hscan, ← List.prefix_iff_eq_take.mp hrun.starts]
    · -- what comes after the run is the rest of the text
      have hsplit : c.skipBlanks.rest.takeWhile isNameChar ++
          c.skipBlanks.rest.dropWhile isNameChar = c.skipBlanks.rest :=
        List.takeWhile_append_dropWhile
      constructor
      · rintro ⟨after, hafter⟩
        exact ⟨after, by rw [← hafter, hsplit]⟩
      · rintro ⟨after, hafter⟩
        exact ⟨after, List.append_cancel_left (hsplit.trans hafter)⟩
  lexeme := by
    intro text kind listed starts longest
    have hscan := scanToken_of_begins listed starts longest
    rw [next_of_scanToken hscan, ← List.prefix_iff_eq_take.mp starts]
  illegal := by
    intro x r hu hnumber hname hlexeme
    have hother : startsNumber c.skipBlanks.rest = false := by
      refine Bool.eq_false_iff.mpr fun hstarts => ?_
      obtain ⟨d, r', hd, hu'⟩ := startsNumber_iff.mp hstarts
      obtain ⟨hwhole, hpoint⟩ := hnumber d r' hd
      exact hu'.elim hwhole hpoint
    have hscan : scanToken c.skipBlanks.rest = .ok (.illegal, 1) := by
      rw [hu] at hother hlexeme ⊢
      exact scanToken_of_begins_none hother hname hlexeme
    rw [next_of_scanToken hscan, hu]
    rfl

end Reckoner
