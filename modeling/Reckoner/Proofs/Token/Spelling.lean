import Reckoner.Proofs.Symbol.Names
import Reckoner.Proofs.Token.Tiling
import Reckoner.Symbol.Operator

/-! # Reading what is spelled

The other direction of scanning: a token that is written into a text is read back as it was written,
unless what follows it goes on with it.

* **`Numeral.scanToken_eq`** — a numeral is read to its end where no name could go on.
* **`scanToken_name`** — so is a name before a bracket.
* **`scanToken_lexeme`** — so is an operator that no sign follows.
* **`Cursor.exists_next_of_scanToken`** — a token is read where its text stands. -/

namespace Reckoner

/-! ## Numerals -/

/-- A digit stands in names. -/
@[simp] theorem isNameChar_of_isDigit {c : Char} (h : c.isDigit = true) : isNameChar c = true := by
  simp [isNameChar, h]

/-- What no name goes on with, no numeral goes on with. -/
theorem stop_of_isNameChar {c : Char} (h : isNameChar c = false) :
    c.isDigit = false ∧ c ≠ '.' ∧ ¬ (c = 'e' ∨ c = 'E') := by
  refine ⟨?_, ?_, ?_⟩
  · refine Bool.eq_false_iff.mpr fun hdigit => ?_
    rw [isNameChar_of_isDigit hdigit] at h
    cases h
  · rintro rfl
    cases h
  · rintro (rfl | rfl) <;> cases h

/-- The scanner measures a mantissa to its end when neither a digit nor a point comes after it. -/
@[simp] theorem Mantissa.width_eq {m rest : List Char} (h : Mantissa m)
    (stop : ∀ c ∈ rest.head?, c.isDigit = false ∧ c ≠ '.') :
    mantissaWidth (m ++ rest) = m.length := by
  have hdigits : ∀ c ∈ rest.head?, c.isDigit = false := fun c hc => (stop c hc).1
  cases h with
  | whole digits nonempty =>
    obtain ⟨htake, -⟩ := digits.takeWhile_append hdigits
    rw [mantissaWidth, htake, List.drop_left]
    split
    · exact absurd rfl (stop '.' rfl).2
    · rfl
  | @pointed ds es digits fraction nonempty =>
    have hpoint : ∀ c ∈ ('.' :: (es ++ rest)).head?, c.isDigit = false := by
      intro c hc
      cases hc
      rfl
    obtain ⟨htake, -⟩ := digits.takeWhile_append hpoint
    obtain ⟨htake', -⟩ := fraction.takeWhile_append hdigits
    simp only [mantissaWidth, List.append_assoc, List.cons_append, htake, List.drop_left, htake',
      List.length_append, List.length_cons]
    omega

/-- A number starts where a numeral is written. -/
@[simp] theorem Numeral.startsNumber_eq {cs : List Char} (h : Numeral cs) (rest : List Char) :
    startsNumber (cs ++ rest) = true := by
  cases h with
  | @intro m x mantissa exponent =>
    -- the first digit, or the first one after the point
    have hdigit : ∀ d ds after, (d :: ds : List Char) = m → d.isDigit = true →
        startsNumber (m ++ x ++ after) = true := by
      rintro d ds after rfl hd
      rw [List.append_assoc, List.cons_append, startsNumber]
      · exact hd
      · rintro e after' rfl
        cases hd
    cases mantissa with
    | whole digits nonempty =>
      obtain ⟨d, ds, rfl⟩ := List.exists_cons_of_ne_nil nonempty
      exact hdigit d ds rest rfl (digits d (List.mem_cons_self ..))
    | @pointed ds es digits fraction nonempty =>
      cases ds with
      | cons d ds => exact hdigit d _ rest rfl (digits d (List.mem_cons_self ..))
      | nil =>
        obtain ⟨e, es, rfl⟩ := List.exists_cons_of_ne_nil (nonempty.resolve_left fun h => h rfl)
        exact fraction e (List.mem_cons_self ..)

/-- The scanner measures the sign before the digits of an exponent, and finds no blank there. -/
theorem signWidth_append {sign ds : List Char} (signed : sign ∈ [[], ['+'], ['-']])
    (digits : Digits ds) (nonempty : ds ≠ []) (rest : List Char) :
    signWidth (sign ++ (ds ++ rest)) = sign.length ∧
      startsBlank (sign ++ (ds ++ rest)) = false := by
  obtain ⟨d, ds', rfl⟩ := List.exists_cons_of_ne_nil nonempty
  have hd : d.isDigit = true := digits d (List.mem_cons_self ..)
  simp only [List.mem_cons, List.not_mem_nil, or_false] at signed
  rcases signed with rfl | rfl | rfl
  · refine ⟨?_, isBlank_eq_false_of_isDigit hd⟩
    -- a digit is no sign
    show signWidth (d :: (ds' ++ rest)) = 0
    unfold signWidth
    split
    · next heq =>
      obtain ⟨rfl, -⟩ := List.cons.inj heq
      cases hd
    · next heq =>
      obtain ⟨rfl, -⟩ := List.cons.inj heq
      cases hd
    · rfl
  · exact ⟨rfl, rfl⟩
  · exact ⟨rfl, rfl⟩

/-- **The scanner measures a numeral to its end** where no name could go on. -/
@[simp] theorem Numeral.scanNumber_eq {cs rest : List Char} (h : Numeral cs)
    (stop : ∀ c ∈ rest.head?, isNameChar c = false) :
    scanNumber (cs ++ rest) = .ok cs.length := by
  cases h with
  | @intro m x mantissa exponent =>
    -- the mantissa ends where the exponent begins, or the rest
    have hmantissa : mantissaWidth (m ++ (x ++ rest)) = m.length := by
      refine mantissa.width_eq ?_
      intro c hc
      cases exponent with
      | absent =>
        obtain ⟨hdigit, hpoint, -⟩ := stop_of_isNameChar (stop c hc)
        exact ⟨hdigit, hpoint⟩
      | present letter signed digits nonempty =>
        cases hc
        rcases letter with rfl | rfl <;> decide
    have hclose : ∀ width, width = (m ++ x).length →
        closeNumber (m ++ x ++ rest) width = .ok (m ++ x).length := by
      rintro _ rfl
      rw [closeNumber, List.drop_left]
      cases rest with
      | nil => rfl
      | cons c rest =>
        have hc := stop c rfl
        simp only [hc, Bool.false_eq_true, if_false]
    rw [scanNumber, List.append_assoc, hmantissa, List.drop_left, ← List.append_assoc]
    cases exponent with
    | absent =>
      rw [List.nil_append]
      cases rest with
      | nil =>
        show Except.ok m.length = _
        rw [List.append_nil]
      | cons c rest =>
        obtain ⟨-, -, hletter⟩ := stop_of_isNameChar (stop c rfl)
        simp only [if_neg hletter]
        exact hclose m.length (by rw [List.append_nil])
    | @present e sign ds letter signed digits nonempty =>
      have hdigits : ∀ c ∈ rest.head?, c.isDigit = false := fun c hc =>
        (stop_of_isNameChar (stop c hc)).1
      obtain ⟨htake, -⟩ := digits.takeWhile_append hdigits
      have hsign := signWidth_append signed digits nonempty rest
      have hlength : ds.length ≠ 0 := fun hzero => nonempty (List.length_eq_zero_iff.mp hzero)
      rw [List.cons_append]
      dsimp only
      rw [if_pos letter, List.append_assoc sign, hsign.1, hsign.2, List.drop_left, htake,
        if_neg Bool.false_ne_true, if_neg hlength]
      refine hclose _ ?_
      simp only [List.length_append, List.length_cons]
      omega

/-- **A numeral is read back whole** when nothing that stands in names comes after it. -/
@[simp] theorem Numeral.scanToken_eq {cs rest : List Char} (h : Numeral cs)
    (stop : ∀ c ∈ rest.head?, isNameChar c = false) :
    scanToken (cs ++ rest) = .ok (.number, cs.length) := by
  have hstarts := h.startsNumber_eq rest
  have hscan := h.scanNumber_eq stop
  cases hcs : cs ++ rest with
  | nil =>
    rw [hcs] at hstarts
    cases hstarts
  | cons c r =>
    rw [hcs] at hstarts hscan
    simp only [scanToken, hstarts, if_true, hscan]
    rfl

/-! ## Names and operators -/

/-- At a character that is no point, a number starts exactly with a digit. -/
@[simp] theorem startsNumber_cons {c : Char} (hc : c ≠ '.') (rest : List Char) :
    startsNumber (c :: rest) = c.isDigit := by
  unfold startsNumber
  split
  · next heq => exact absurd (List.cons.inj heq).1 hc
  · next heq => rw [(List.cons.inj heq).1]
  · next heq => cases heq

/-- No name begins like a number. -/
@[simp] theorem startsNumber_of_isNameStart {c : Char} (h : isNameStart c = true) (rest : List Char) :
    startsNumber (c :: rest) = false := by
  have hpoint : c ≠ '.' := by
    rintro rfl
    cases h
  rw [startsNumber_cons hpoint]
  refine Bool.eq_false_iff.mpr fun hdigit => ?_
  have hrange : 48 ≤ c.toNat ∧ c.toNat ≤ 57 := Char.isDigit_iff_toNat.mp hdigit
  simp only [isNameStart, Bool.or_eq_true, decide_eq_true_eq] at h
  rcases h with h | rfl
  · -- the letters come after the digits
    have hletter := isAlpha_iff.mp h
    omega
  · cases hdigit

/-- **A name before a bracket** is read to its end, as that of a function. -/
@[simp] theorem scanToken_name {c : Char} {name : List Char} (first : isNameStart c = true)
    (others : ∀ x ∈ name, isNameChar x = true) (rest : List Char) :
    scanToken (c :: name ++ '(' :: rest) = .ok (.function, (c :: name).length) := by
  have hall : ∀ x ∈ c :: name, isNameChar x = true := by
    refine List.forall_mem_cons.mpr ⟨?_, others⟩
    simp [isNameChar, first]
  have htake : (c :: name ++ '(' :: rest).takeWhile isNameChar = c :: name := by
    rw [List.takeWhile_append_of_pos hall, List.takeWhile_cons_of_neg (by decide), List.append_nil]
  rw [List.cons_append] at htake ⊢
  simp only [scanToken, startsNumber_of_isNameStart first, Bool.false_eq_true, if_false, first,
    if_true, htake]
  rw [← List.cons_append, List.drop_left]
  rfl

/-- The characters that an operator may go on with. -/
def joins (c : Char) : Bool := c ∈ ['<', '>', '+', '-']

/-- A digit does not lengthen an operator. -/
@[simp] theorem joins_of_isDigit {c : Char} (h : c.isDigit = true) : joins c = false := by
  refine Bool.eq_false_iff.mpr fun hjoins => ?_
  simp only [joins, List.mem_cons, List.not_mem_nil, or_false, decide_eq_true_eq] at hjoins
  rcases hjoins with rfl | rfl | rfl | rfl <;> cases h

/-- The first character of a name does not lengthen an operator. -/
@[simp] theorem joins_of_isNameStart {c : Char} (h : isNameStart c = true) : joins c = false := by
  refine Bool.eq_false_iff.mpr fun hjoins => ?_
  simp only [joins, List.mem_cons, List.not_mem_nil, or_false, decide_eq_true_eq] at hjoins
  rcases hjoins with rfl | rfl | rfl | rfl <;> cases h

/-- The four characters that lengthen an operator, one by one. -/
theorem beq_eq_false_of_joins {c : Char} (h : joins c = false) :
    ('<' == c) = false ∧ ('>' == c) = false ∧ ('+' == c) = false ∧ ('-' == c) = false := by
  refine ⟨?_, ?_, ?_, ?_⟩ <;> refine beq_eq_false_iff_ne.mpr ?_ <;> rintro rfl <;> cases h

/-- An operator is the first lexeme of a text that does not go on with it. Brackets, commas and marks
of the factorial are not gone on with. -/
theorem find?_lexemes {text rest : List Char} {kind : TokenKind} (h : (text, kind) ∈ lexemes)
    (stop : kind ∈ [.openParen, .closeParen, .comma, .factorial] ∨
      ∀ c ∈ rest.head?, joins c = false) :
    lexemes.find? (fun (text', _) => text'.isPrefixOf (text ++ rest)) = some (text, kind) := by
  have hother : ∀ c ∈ rest.head?, kind ∉ [.openParen, .closeParen, .comma, .factorial] →
      ('<' == c) = false ∧ ('>' == c) = false ∧ ('+' == c) = false ∧ ('-' == c) = false :=
    fun c hc hkind => beq_eq_false_of_joins (stop.resolve_left hkind c hc)
  simp only [lexemes, List.mem_cons, Prod.mk.injEq, List.not_mem_nil, or_false] at h
  -- an operator of one character depends on the one after it
  rcases h with ⟨rfl, rfl⟩ | ⟨rfl, rfl⟩ | ⟨rfl, rfl⟩ | ⟨rfl, rfl⟩ | ⟨rfl, rfl⟩ | ⟨rfl, rfl⟩ |
    ⟨rfl, rfl⟩ | ⟨rfl, rfl⟩ | ⟨rfl, rfl⟩ | ⟨rfl, rfl⟩ | ⟨rfl, rfl⟩ | ⟨rfl, rfl⟩ | ⟨rfl, rfl⟩ |
    ⟨rfl, rfl⟩ | ⟨rfl, rfl⟩ | ⟨rfl, rfl⟩ | ⟨rfl, rfl⟩ | ⟨rfl, rfl⟩ | ⟨rfl, rfl⟩ | ⟨rfl, rfl⟩
  all_goals first
    | rfl
    | cases rest with
      | nil => rfl
      | cons c rest =>
        obtain ⟨hless, hgreater, hplus, hminus⟩ := hother c rfl (by decide)
        simp [lexemes, List.find?, List.isPrefixOf, hless, hgreater, hplus, hminus]

/-- The first lexeme of a text is its first token. -/
theorem scanToken_of_find? {text rest : List Char} {kind : TokenKind} (h : (text, kind) ∈ lexemes)
    (found : lexemes.find? (fun (text', _) => text'.isPrefixOf (text ++ rest)) = some (text, kind)) :
    scanToken (text ++ rest) = .ok (kind, text.length) := by
  -- no operator begins like a number or a name
  have hfirst : (lexemes.all fun e =>
      e.1.head?.any fun c => c ≠ '.' && (!c.isDigit && !isNameStart c)) = true := by decide
  have htext := List.all_eq_true.mp hfirst _ h
  cases text with
  | nil => cases htext
  | cons c r =>
    simp only [List.head?_cons, Option.any_some, Bool.and_eq_true, decide_eq_true_eq,
      Bool.not_eq_true'] at htext
    obtain ⟨hpoint, hdigit, hname⟩ := htext
    rw [List.cons_append] at found ⊢
    simp only [scanToken, startsNumber_cons hpoint, hdigit, Bool.false_eq_true, if_false, hname,
      found]

/-- **An operator** is read to its end where no operator could go on. -/
@[simp] theorem scanToken_lexeme {text rest : List Char} {kind : TokenKind} (h : (text, kind) ∈ lexemes)
    (stop : kind ∈ [.openParen, .closeParen, .comma, .factorial] ∨
      ∀ c ∈ rest.head?, joins c = false) :
    scanToken (text ++ rest) = .ok (kind, text.length) :=
  scanToken_of_find? h (find?_lexemes h stop)

/-- Every operator is in the table of lexemes under its symbol. -/
theorem Operator.symbol_mem_lexemes (op : Operator) :
    (op.symbol.toList, op.tokenKind) ∈ lexemes := by
  cases op <;> decide

/-- No name goes on with an operator. -/
theorem Operator.stop_symbol (op : Operator) (rest : List Char) :
    ∀ x ∈ (op.symbol.toList ++ rest).head?, isNameChar x = false := by
  have hfirst : ∃ c r, op.symbol.toList = c :: r ∧ isNameChar c = false := by
    cases op <;> exact ⟨_, _, rfl, by decide⟩
  obtain ⟨c, r, hsymbol, hc⟩ := hfirst
  intro x hx
  rw [hsymbol] at hx
  cases hx
  exact hc

/-! ## Reading where a text stands -/

namespace Cursor

/-- After blanks, a token is the next one. -/
theorem next_of_rest {c : Cursor} {blanks text rest : List Char} {kind : TokenKind}
    (here : c.rest = blanks ++ (text ++ rest)) (blank : ∀ x ∈ blanks, isBlank x = true)
    (nonempty : text ≠ []) (visible : ∀ x ∈ text.head?, isBlank x = false)
    (scan : scanToken (text ++ rest) = .ok (kind, text.length)) :
    ∃ c', c.next = (.ok ⟨kind, String.ofList text, c.index + blanks.length⟩, c') ∧
      c'.rest = rest ∧ c'.index = c.index + blanks.length + text.length := by
  obtain ⟨x, r, rfl⟩ := List.exists_cons_of_ne_nil nonempty
  have hblank : isBlank x = false := visible x rfl
  have htake : c.rest.takeWhile isBlank = blanks := by
    rw [here, List.takeWhile_append_of_pos blank, List.cons_append,
      List.takeWhile_cons_of_neg (by rw [hblank]; exact Bool.false_ne_true), List.append_nil]
  have hskip : c.skipBlanks.rest = x :: r ++ rest := by
    rw [skipBlanks, rest_advance, htake, here, List.drop_left]
  have hindex : c.skipBlanks.index = c.index + blanks.length := by
    rw [skipBlanks, htake]
    show c.index + (c.rest.take blanks.length).length = _
    rw [here, List.take_left]
  rw [← hskip] at scan
  refine ⟨c.skipBlanks.advance (x :: r).length, ?_, ?_, ?_⟩
  · rw [next_of_scanToken scan, hskip, List.take_left, hindex]
  · rw [rest_advance, hskip, List.drop_left]
  · show c.skipBlanks.index + (c.skipBlanks.rest.take (x :: r).length).length = _
    rw [hskip, List.take_left, hindex]

/-- A token is read where its text stands. -/
theorem exists_next_of_scanToken {c : Cursor} {text rest : List Char} {kind : TokenKind}
    (here : c.rest = text ++ rest) (visible : ∀ x ∈ text.head?, isBlank x = false)
    (scan : scanToken (text ++ rest) = .ok (kind, text.length)) (inner : kind ≠ .finish) :
    ∃ t c', c.Passes [t] c' ∧ c'.rest = rest ∧ t.kind = kind ∧ t.literal.toList = text := by
  have hne : text ≠ [] := by
    rintro rfl
    rw [List.nil_append] at scan
    cases rest with
    | nil =>
      cases scan
      exact inner rfl
    | cons x rest => exact absurd (scanToken_width_pos (List.cons_ne_nil x rest) scan) (Nat.lt_irrefl 0)
  have hnone : ∀ x ∈ ([] : List Char), isBlank x = true := fun x hx => absurd hx List.not_mem_nil
  have hhere : c.rest = [] ++ (text ++ rest) := here
  obtain ⟨c', hnext, hrest, -⟩ := next_of_rest hhere hnone hne visible scan
  exact ⟨_, c', .cons hnext inner .nil, hrest, rfl, String.toList_ofList⟩

/-- A numeral is read where it stands. -/
theorem exists_next_of_numeral {c : Cursor} {cs rest : List Char} (h : Numeral cs)
    (here : c.rest = cs ++ rest) (stop : ∀ x ∈ rest.head?, isNameChar x = false) :
    ∃ t c', c.Passes [t] c' ∧ c'.rest = rest ∧ t.kind = .number ∧ t.literal.toList = cs := by
  have hvisible : ∀ y ∈ cs.head?, isBlank y = false := fun y hy =>
    isBlank_of_isNumeralChar (h.isNumeralChar y (List.mem_of_mem_head? hy))
  exact exists_next_of_scanToken here hvisible (h.scanToken_eq stop) (by decide)

/-- An operator is read where it stands. -/
theorem exists_next_of_lexeme {c : Cursor} {text rest : List Char} {kind : TokenKind}
    (h : (text, kind) ∈ lexemes) (here : c.rest = text ++ rest)
    (stop : kind ∈ [.openParen, .closeParen, .comma, .factorial] ∨
      ∀ x ∈ rest.head?, joins x = false) :
    ∃ t c', c.Passes [t] c' ∧ c'.rest = rest ∧ t.kind = kind := by
  have hlexemes : (lexemes.all fun e => e.2 ≠ .finish && e.1.head?.all fun x => !isBlank x) = true := by
    decide
  have hlexeme := List.all_eq_true.mp hlexemes _ h
  simp only [Bool.and_eq_true, decide_eq_true_eq] at hlexeme
  have hvisible : ∀ x ∈ text.head?, isBlank x = false := by
    intro x hx
    have hblank := hlexeme.2
    rw [Option.mem_def.mp hx] at hblank
    exact (Bool.not_eq_true' _).mp hblank
  obtain ⟨t, c', hpasses, hrest, hkind, -⟩ :=
    exists_next_of_scanToken here hvisible (scanToken_lexeme h stop) hlexeme.1
  exact ⟨t, c', hpasses, hrest, hkind⟩

/-- Reading an opening parenthesis that stands at the cursor. -/
theorem exists_next_of_open {c : Cursor} {rest : List Char} (here : c.rest = '(' :: rest) :
    ∃ t c', c.Passes [t] c' ∧ c'.rest = rest ∧ t.kind = .openParen := by
  have hlexeme : (['('], TokenKind.openParen) ∈ lexemes := by decide
  exact exists_next_of_lexeme hlexeme here (.inl (by decide))

/-- Reading a closing parenthesis that stands at the cursor. -/
theorem exists_next_of_close {c : Cursor} {rest : List Char} (here : c.rest = ')' :: rest) :
    ∃ t c', c.Passes [t] c' ∧ c'.rest = rest ∧ t.kind = .closeParen := by
  have hlexeme : ([')'], TokenKind.closeParen) ∈ lexemes := by decide
  exact exists_next_of_lexeme hlexeme here (.inl (by decide))

/-- The name of a function is read before a bracket. -/
theorem exists_next_of_name {c : Cursor} {f : Function} {rest : List Char}
    (here : c.rest = f.name.toList ++ '(' :: rest) :
    ∃ t c', c.Passes [t] c' ∧ c'.rest = '(' :: rest ∧ t.kind = .function ∧ t.literal = f.name := by
  obtain ⟨first, name, hname, hstart, hothers⟩ := f.exists_name
  rw [hname] at here
  have hvisible : ∀ x ∈ (first :: name).head?, isBlank x = false := by
    intro x hx
    cases hx
    exact isBlank_eq_false_of_isNameChar (by simp [isNameChar, hstart])
  obtain ⟨t, c', hpasses, hrest, hkind, hliteral⟩ :=
    exists_next_of_scanToken here hvisible (scanToken_name hstart hothers rest) (by decide)
  refine ⟨t, c', hpasses, hrest, hkind, ?_⟩
  rw [← String.ofList_toList (s := t.literal), hliteral, ← hname, String.ofList_toList]

end Cursor

end Reckoner
