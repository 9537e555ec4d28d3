import Mathlib.Data.List.TakeWhile
import Reckoner.Binary64.Decimal
import Reckoner.Proofs.Token.Sequence

/-! # Numbers of the scanner are numerals

The scanner only measures how long a number is. This file says what the number consists of, and that
such a text is always read for a number, with nothing of it left over.

* **`Numeral`** — digits with an optional point among or beside them, and an optional exponent.
* **`Cursor.numeral_of_next`** — the text of every number token is a numeral.
* **`Numeral.read?_eq`** — every numeral is read, and its value is `Binary64.ofNumeral`. -/

namespace Reckoner

/-! ## The shape of a numeral -/

/-- A text of ASCII digits. -/
def Digits (cs : List Char) : Prop := ∀ c ∈ cs, c.isDigit = true

/-- A run of digits at the head of a text is one of digits. -/
theorem digits_takeWhile (cs : List Char) : Digits (cs.takeWhile Char.isDigit) := by
  intro c hc
  exact List.all_eq_true.mp List.all_takeWhile c hc

/-- Digits, with a point among or beside them or without one. -/
inductive Mantissa : List Char → Prop
  | whole {ds : List Char} (digits : Digits ds) (nonempty : ds ≠ []) : Mantissa ds
  | pointed {ds es : List Char} (digits : Digits ds) (fraction : Digits es)
      (nonempty : ds ≠ [] ∨ es ≠ []) : Mantissa (ds ++ '.' :: es)

/-- A letter `e`, at most one sign, and digits; or nothing. -/
inductive ExponentPart : List Char → Prop
  | absent : ExponentPart []
  | present {e : Char} {sign ds : List Char} (letter : e = 'e' ∨ e = 'E')
      (signed : sign ∈ [[], ['+'], ['-']]) (digits : Digits ds) (nonempty : ds ≠ []) :
      ExponentPart (e :: (sign ++ ds))

/-- The text of a **numeral**: a mantissa and an exponent. -/
inductive Numeral : List Char → Prop
  | intro {m x : List Char} (mantissa : Mantissa m) (exponent : ExponentPart x) : Numeral (m ++ x)

/-! ## What the scanner measures -/

/-- What comes after a run at the head of a list. -/
@[simp] theorem drop_length_takeWhile {α : Type} (p : α → Bool) (l : List α) :
    l.drop (l.takeWhile p).length = l.dropWhile p := by
  have h : (l.takeWhile p ++ l.dropWhile p).drop (l.takeWhile p).length = l.dropWhile p :=
    List.drop_left
  rwa [List.takeWhile_append_dropWhile] at h

/-- The mantissa that the scanner measures. -/
theorem exists_mantissa {cs : List Char} (h : startsNumber cs = true) :
    ∃ m rest, cs = m ++ rest ∧ mantissaWidth cs = m.length ∧ Mantissa m := by
  have hsplit : cs.takeWhile Char.isDigit ++ cs.dropWhile Char.isDigit = cs :=
    List.takeWhile_append_dropWhile
  have hdigits := digits_takeWhile cs
  have hdrop := drop_length_takeWhile Char.isDigit cs
  -- the scanner looks for a point after the first digits
  by_cases hpoint : ∃ r, cs.dropWhile Char.isDigit = '.' :: r
  · obtain ⟨r, hr⟩ := hpoint
    have hrest : r.takeWhile Char.isDigit ++ r.dropWhile Char.isDigit = r :=
      List.takeWhile_append_dropWhile
    refine ⟨cs.takeWhile Char.isDigit ++ '.' :: r.takeWhile Char.isDigit,
      r.dropWhile Char.isDigit, ?_, ?_, .pointed hdigits (digits_takeWhile r) ?_⟩
    · rw [List.append_assoc, List.cons_append, hrest, ← hr, hsplit]
    · rw [mantissaWidth, hdrop, hr, List.length_append, List.length_cons]
      show _ + 1 + _ = _
      omega
    · -- a text that begins with the point goes on with a digit
      by_cases hwhole : cs.takeWhile Char.isDigit = []
      · right
        rw [hwhole, hr, List.nil_append] at hsplit
        subst hsplit
        cases r with
        | nil => cases h
        | cons d r =>
          have hd : d.isDigit = true := h
          rw [List.takeWhile_cons_of_pos hd]
          exact List.cons_ne_nil _ _
      · exact .inl hwhole
  · refine ⟨cs.takeWhile Char.isDigit, cs.dropWhile Char.isDigit, hsplit.symm, ?_,
      .whole hdigits ?_⟩
    · rw [mantissaWidth, hdrop]
      split
      · next r hr => exact absurd ⟨r, hr⟩ hpoint
      · rfl
    · -- a number without first digits begins with the point
      intro hwhole
      rw [hwhole, List.nil_append] at hsplit
      cases cs with
      | nil => cases h
      | cons c r =>
        by_cases hc : c.isDigit = true
        · rw [List.takeWhile_cons_of_pos hc] at hwhole
          cases hwhole
        · have hdot : c = '.' := by
            cases r with
            | nil => exact absurd h (by simp [startsNumber, hc])
            | cons d r =>
              by_cases hdot : c = '.'
              · exact hdot
              · exact absurd h (by simp [startsNumber, hdot, hc])
          exact hpoint ⟨r, by rw [hsplit, hdot]⟩

/-- The sign that the scanner measures. -/
theorem exists_sign (r : List Char) :
    ∃ sign rest, r = sign ++ rest ∧ signWidth r = sign.length ∧ sign ∈ [[], ['+'], ['-']] := by
  unfold signWidth
  split
  · next r => exact ⟨['+'], r, rfl, rfl, by simp⟩
  · next r => exact ⟨['-'], r, rfl, rfl, by simp⟩
  · exact ⟨[], r, rfl, rfl, by simp⟩

/-- **What the scanner measures for a number is a numeral.** -/
theorem exists_numeral {cs : List Char} {width : Nat} (h : startsNumber cs = true)
    (hscan : scanNumber cs = .ok width) :
    ∃ t rest, cs = t ++ rest ∧ width = t.length ∧ Numeral t := by
  obtain ⟨m, rest, rfl, hwidth, hmantissa⟩ := exists_mantissa h
  -- without an exponent the mantissa is the number
  have hbare : ∃ t after, m ++ rest = t ++ after ∧ m.length = t.length ∧ Numeral t := by
    refine ⟨m, rest, rfl, rfl, ?_⟩
    have hnumeral := Numeral.intro hmantissa .absent
    rwa [List.append_nil] at hnumeral
  simp only [scanNumber, hwidth, List.drop_left] at hscan
  cases rest with
  | nil =>
    cases hscan
    exact hbare
  | cons e r =>
    by_cases letter : e = 'e' ∨ e = 'E'
    · simp only [letter, if_true] at hscan
      obtain ⟨sign, after, rfl, hsign, signed⟩ := exists_sign r
      rw [hsign, List.drop_left] at hscan
      -- a blank after the letter and an exponent without digits are faults
      split at hscan
      · cases hscan
      · split at hscan
        · cases hscan
        · next hdigits =>
          have hsplit : after.takeWhile Char.isDigit ++ after.dropWhile Char.isDigit = after :=
            List.takeWhile_append_dropWhile
          have hexponent : ExponentPart (e :: (sign ++ after.takeWhile Char.isDigit)) :=
            .present letter signed (digits_takeWhile after) fun hnil => hdigits (by rw [hnil]; rfl)
          refine ⟨m ++ e :: (sign ++ after.takeWhile Char.isDigit), after.dropWhile Char.isDigit,
            ?_, ?_, .intro hmantissa hexponent⟩
          · rw [List.append_assoc, List.cons_append, List.append_assoc, hsplit]
          · rw [closeNumber_eq_ok hscan, List.length_append, List.length_cons, List.length_append]
            omega
    · simp only [letter, if_false] at hscan
      rw [closeNumber_eq_ok hscan]
      exact hbare

/-- A number token is read by the scanner of numbers, where a number starts. -/
theorem scanToken_eq_number {cs : List Char} {width : Nat}
    (h : scanToken cs = .ok (.number, width)) :
    startsNumber cs = true ∧ scanNumber cs = .ok width := by
  have hscans := scans_scanToken cs
  rw [h] at hscans
  cases hscans with
  | number starts scan => exact ⟨starts, scan⟩
  | lexeme listed begins =>
    have noNumber : ∀ e ∈ lexemes, e.2 ≠ TokenKind.number := by decide
    exact absurd rfl (noNumber _ listed)

/-- **The text of every number token is a numeral.** -/
theorem Cursor.numeral_of_next {c c' : Cursor} {t : Token} (read : c.next = (.ok t, c'))
    (kind : t.kind = .number) : Numeral t.literal.toList := by
  obtain ⟨width, hscan, hliteral, -, -⟩ := scanToken_of_next read
  rw [kind] at hscan
  obtain ⟨hstarts, hnumber⟩ := scanToken_eq_number hscan
  obtain ⟨text, rest, hrest, rfl, hnumeral⟩ := exists_numeral hstarts hnumber
  rw [hliteral, String.toList_ofList, hrest, List.take_left]
  exact hnumeral

/-! ## Reading a numeral -/

/-- The characters of a numeral. -/
def isNumeralChar (c : Char) : Bool :=
  c.isDigit || c = '.' || c = 'e' || c = 'E' || c = '+' || c = '-'

/-- A digit stands in numerals. -/
@[simp] theorem isNumeralChar_of_isDigit {c : Char} (h : c.isDigit = true) : isNumeralChar c = true := by
  simp [isNumeralChar, h]

/-- Every character of a mantissa stands in numerals. -/
theorem Mantissa.isNumeralChar {m : List Char} (h : Mantissa m) :
    ∀ c ∈ m, isNumeralChar c = true := by
  intro c hc
  cases h with
  | whole digits nonempty => exact isNumeralChar_of_isDigit (digits c hc)
  | pointed digits fraction nonempty =>
    rcases List.mem_append.mp hc with hc | hc
    · exact isNumeralChar_of_isDigit (digits c hc)
    · rcases List.mem_cons.mp hc with rfl | hc
      · rfl
      · exact isNumeralChar_of_isDigit (fraction c hc)

/-- Every character of an exponent stands in numerals. -/
theorem ExponentPart.isNumeralChar {x : List Char} (h : ExponentPart x) :
    ∀ c ∈ x, isNumeralChar c = true := by
  intro c hc
  cases h with
  | absent => cases hc
  | @present e sign ds letter signed digits nonempty =>
    rcases List.mem_cons.mp hc with rfl | hc
    · rcases letter with rfl | rfl <;> rfl
    · rcases List.mem_append.mp hc with hc | hc
      · simp only [List.mem_cons, List.not_mem_nil, or_false] at signed
        rcases signed with rfl | rfl | rfl
        · cases hc
        · rw [List.mem_singleton.mp hc]
          rfl
        · rw [List.mem_singleton.mp hc]
          rfl
      · exact isNumeralChar_of_isDigit (digits c hc)

/-- Every character of a numeral stands in numerals. -/
theorem Numeral.isNumeralChar {cs : List Char} (h : Numeral cs) :
    ∀ c ∈ cs, isNumeralChar c = true := by
  intro c hc
  cases h with
  | intro mantissa exponent =>
    rcases List.mem_append.mp hc with hc | hc
    · exact mantissa.isNumeralChar c hc
    · exact exponent.isNumeralChar c hc

/-- A numeral begins with a digit or a point. -/
theorem Numeral.head {cs : List Char} (h : Numeral cs) :
    ∃ c r, cs = c :: r ∧ (c.isDigit = true ∨ c = '.') := by
  cases h with
  | intro mantissa exponent =>
    cases mantissa with
    | whole digits nonempty =>
      obtain ⟨d, ds, rfl⟩ := List.exists_cons_of_ne_nil nonempty
      exact ⟨d, _, rfl, .inl (digits d (List.mem_cons_self ..))⟩
    | @pointed ds es digits fraction nonempty =>
      cases ds with
      | nil => exact ⟨'.', _, rfl, .inr rfl⟩
      | cons d ds => exact ⟨d, _, rfl, .inl (digits d (List.mem_cons_self ..))⟩

/-- Digits are read up to what is no digit. -/
theorem Digits.takeWhile_append {ds rest : List Char} (h : Digits ds)
    (stop : ∀ c ∈ rest.head?, c.isDigit = false) :
    (ds ++ rest).takeWhile Char.isDigit = ds ∧ (ds ++ rest).dropWhile Char.isDigit = rest := by
  rw [List.takeWhile_append_of_pos h, List.dropWhile_append_of_pos h]
  cases rest with
  | nil => exact ⟨List.append_nil ds, rfl⟩
  | cons c rest =>
    have hc : ¬ c.isDigit = true := Bool.eq_false_iff.mp (stop c rfl)
    rw [List.takeWhile_cons_of_neg hc, List.dropWhile_cons_of_neg hc]
    exact ⟨List.append_nil ds, rfl⟩

/-- An exponent begins with neither a digit nor a point, so a mantissa ends before it. -/
theorem ExponentPart.stop {x : List Char} (h : ExponentPart x) :
    ∀ c ∈ x.head?, c.isDigit = false ∧ c ≠ '.' := by
  intro c hc
  cases h with
  | absent => cases hc
  | present letter signed digits nonempty =>
    cases hc
    rcases letter with rfl | rfl <;> decide

/-- An exponent is read to its end. -/
theorem ExponentPart.scanExponent?_eq {x : List Char} (h : ExponentPart x) :
    ∃ power, (scanExponent? x).getD (0, x) = (power, []) := by
  cases h with
  | absent => exact ⟨0, rfl⟩
  | @present e sign ds letter signed digits nonempty =>
    -- nothing is left after the digits
    have hread : ds.takeWhile Char.isDigit = ds ∧ ds.dropWhile Char.isDigit = [] := by
      have h : (ds ++ []).takeWhile Char.isDigit = ds ∧ (ds ++ []).dropWhile Char.isDigit = [] :=
        digits.takeWhile_append (by simp)
      rwa [List.append_nil] at h
    have hne : ds.isEmpty = false := by simpa using nonempty
    simp only [List.mem_cons, List.not_mem_nil, or_false] at signed
    unfold scanExponent?
    rcases signed with rfl | rfl | rfl
    · -- the digits do not begin with a sign
      obtain ⟨d, ds', rfl⟩ := List.exists_cons_of_ne_nil nonempty
      have hd : d.isDigit = true := digits d (List.mem_cons_self ..)
      simp only [if_pos letter, List.nil_append]
      split
      · next r hr =>
        obtain ⟨rfl, -⟩ := List.cons.inj hr
        cases hd
      · next r hr =>
        obtain ⟨rfl, -⟩ := List.cons.inj hr
        cases hd
      · simp only [hread.1, hread.2, hne]
        exact ⟨_, rfl⟩
    · simp only [if_pos letter, List.singleton_append, hread.1, hread.2, hne]
      exact ⟨_, rfl⟩
    · simp only [if_pos letter, List.singleton_append, hread.1, hread.2, hne]
      exact ⟨_, rfl⟩

/-- Digits and an exponent are read for a decimal. -/
@[simp] theorem scanNumeral_whole {ds x : List Char} {power : Int} (digits : Digits ds) (nonempty : ds ≠ [])
    (exponent : ExponentPart x) (hpower : (scanExponent? x).getD (0, x) = (power, [])) :
    scanNumeral (ds ++ x) = some (⟨digitsValue ds, power⟩, []) := by
  obtain ⟨htake, hdrop⟩ := digits.takeWhile_append fun c hc => (exponent.stop c hc).1
  have hne : ds.isEmpty = false := by simpa using nonempty
  simp only [scanNumeral, htake, hdrop, hne, Bool.false_and, Bool.false_eq_true, if_false]
  split
  · -- what follows the digits is no point
    exact absurd rfl (exponent.stop '.' rfl).2
  · simp only [hpower, List.append_nil, List.length_nil, Int.natCast_zero, Int.sub_zero]

/-- Digits, a point, digits and an exponent are read for a decimal. -/
@[simp] theorem scanNumeral_pointed {ds es x : List Char} {power : Int} (digits : Digits ds)
    (fraction : Digits es) (nonempty : ds ≠ [] ∨ es ≠ []) (exponent : ExponentPart x)
    (hpower : (scanExponent? x).getD (0, x) = (power, [])) :
    scanNumeral (ds ++ '.' :: (es ++ x)) =
      some (⟨digitsValue (ds ++ es), power - es.length⟩, []) := by
  -- the first digits stop at the point, those after it at the exponent
  have hpoint : ∀ c ∈ ('.' :: (es ++ x)).head?, c.isDigit = false := by
    intro c hc
    cases hc
    rfl
  obtain ⟨htake, hdrop⟩ := digits.takeWhile_append hpoint
  obtain ⟨htake', hdrop'⟩ := fraction.takeWhile_append fun c hc => (exponent.stop c hc).1
  have hne : (ds.isEmpty && es.isEmpty) = false := by
    rcases nonempty with hds | hes
    · simp [hds]
    · simp [hes]
  simp only [scanNumeral, htake, hdrop, htake', hdrop', hne, hpower, Bool.false_eq_true, if_false]

/-- **A numeral is read to its end.** -/
theorem Numeral.scanNumeral_eq {cs : List Char} (h : Numeral cs) :
    ∃ d, scanNumeral cs = some (d, []) := by
  cases h with
  | @intro m x mantissa exponent =>
    obtain ⟨power, hpower⟩ := exponent.scanExponent?_eq
    cases mantissa with
    | whole digits nonempty => exact ⟨_, scanNumeral_whole digits nonempty exponent hpower⟩
    | @pointed ds es digits fraction nonempty =>
      rw [List.append_assoc, List.cons_append]
      exact ⟨_, scanNumeral_pointed digits fraction nonempty exponent hpower⟩

/-! ### Nothing in a numeral is dropped or replaced before it is read -/

/-- No character of a numeral is a blank. -/
@[simp] theorem isBlank_of_isNumeralChar {c : Char} (h : Reckoner.isNumeralChar c = true) :
    isBlank c = false := by
  simp only [Reckoner.isNumeralChar, Bool.or_eq_true, decide_eq_true_eq] at h
  rcases h with ((((h | rfl) | rfl) | rfl) | rfl) | rfl
  · exact isBlank_eq_false_of_isDigit h
  all_goals decide

/-- A character of a numeral is its own ASCII digit, as it is read for a value. -/
@[simp] theorem asciiDigit_of_isNumeralChar {c : Char} (h : Reckoner.isNumeralChar c = true) :
    asciiDigit c = c := by
  simp only [Reckoner.isNumeralChar, Bool.or_eq_true, decide_eq_true_eq] at h
  rcases h with ((((h | rfl) | rfl) | rfl) | rfl) | rfl
  · have hrange : 48 ≤ c.toNat ∧ c.toNat ≤ 57 := Char.isDigit_iff_toNat.mp h
    -- the ASCII digits are the first of the ranges of ten
    have hzero : zeroDigits.find? (fun first => first ≤ c.toNat && c.toNat ≤ first + 9) =
        some 48 := by
      rw [zeroDigits, List.find?_cons_of_pos]
      simp [hrange]
    have hnat : '0'.toNat + (c.toNat - 48) = c.toNat := by
      show 48 + (c.toNat - 48) = c.toNat
      omega
    rw [asciiDigit, hzero]
    dsimp only
    rw [hnat, Char.ofNat_toNat]
  all_goals decide

/-- There are no blanks around a numeral. -/
@[simp] theorem Numeral.trimBlank_eq {cs : List Char} (h : Numeral cs) : trimBlank cs = cs := by
  have hblank : ∀ c ∈ cs, ¬ isBlank c = true := fun c hc =>
    Bool.eq_false_iff.mp (isBlank_of_isNumeralChar (h.isNumeralChar c hc))
  have hfront : cs.dropWhile isBlank = cs :=
    List.dropWhile_eq_self_iff.mpr fun _ => hblank _ (List.getElem_mem _)
  have hback : cs.reverse.dropWhile isBlank = cs.reverse :=
    List.dropWhile_eq_self_iff.mpr fun _ => hblank _ (List.mem_reverse.mp (List.getElem_mem _))
  rw [trimBlank, hfront, hback, List.reverse_reverse]

/-- A text without underscores has no groups of digits to join. -/
@[simp] theorem ungroup?_eq {cs : List Char} (h : ∀ c ∈ cs, c ≠ '_') (afterDigit : Bool) :
    ungroup? afterDigit cs = some cs := by
  induction cs generalizing afterDigit with
  | nil => rfl
  | cons c cs ih =>
    have hc : c ≠ '_' := h c (List.mem_cons_self ..)
    unfold ungroup?
    split
    · next heq => cases heq
    · next heq =>
      obtain ⟨rfl, -⟩ := List.cons.inj heq
      exact absurd rfl hc
    · next c' rest _ heq =>
      obtain ⟨rfl, rfl⟩ := List.cons.inj heq
      rw [if_neg hc, ih (fun d hd => h d (List.mem_cons_of_mem c hd))]
      rfl

/-- A numeral is its own plain form. -/
@[simp] theorem Numeral.plainNumeral?_eq {cs : List Char} (h : Numeral cs) :
    plainNumeral? (String.ofList cs) = some cs := by
  have hascii : cs.map asciiDigit = cs := by
    rw [List.map_congr_left fun c hc => asciiDigit_of_isNumeralChar (h.isNumeralChar c hc)]
    exact List.map_id cs
  have hunderscore : ∀ c ∈ cs, c ≠ '_' := by
    intro c hc hunder
    have hchar := h.isNumeralChar c hc
    rw [hunder] at hchar
    cases hchar
  rw [plainNumeral?, String.toList_ofList, h.trimBlank_eq, hascii, ungroup?_eq hunderscore]

/-- A digit and a point have no lower case. -/
theorem toLower_of_head {c : Char} (hc : c.isDigit = true ∨ c = '.') : c.toLower = c := by
  rcases hc with hc | rfl
  · have hrange : 48 ≤ c.toNat ∧ c.toNat ≤ 57 := Char.isDigit_iff_toNat.mp hc
    -- the capital letters come after the digits
    have hupper : ¬ (c.val ≥ 'A'.val ∧ c.val ≤ 'Z'.val) := by
      rw [ge_iff_le, UInt32.le_iff_toNat_le]
      intro h
      have hA : 65 ≤ c.toNat := h.1
      omega
    exact dif_neg hupper
  · rfl

/-- **Every numeral is read**, for the number that the assembler makes of it. -/
@[simp] theorem Numeral.read?_eq {s : String} (h : Numeral s.toList) :
    Binary64.read? s = some (Binary64.ofNumeral s.toList) := by
  obtain ⟨d, hscan⟩ := h.scanNumeral_eq
  obtain ⟨c, r, hs, hc⟩ := h.head
  have hplain := h.plainNumeral?_eq
  rw [String.ofList_toList] at hplain
  rw [hs] at hscan hplain ⊢
  -- the text is none of the words for infinity and NaN, which begin with a letter
  have hword : ∀ first w, first ≠ c → String.ofList ((c :: r).map Char.toLower) ≠
      String.ofList (first :: w) := by
    intro first w hfirst heq
    have hlist := String.ofList_injective heq
    rw [List.map_cons, toLower_of_head hc] at hlist
    exact hfirst (List.cons.inj hlist).1.symm
  have hother : ∀ first, first ≠ '.' → first.isDigit = false → first ≠ c := by
    rintro first hpoint hdigit rfl
    rcases hc with hc | hc
    · rw [hdigit] at hc
      cases hc
    · exact hpoint hc
  have hnan : String.ofList ((c :: r).map Char.toLower) ≠ "nan" :=
    hword 'n' ['a', 'n'] (hother 'n' (by decide) rfl)
  have hinf : String.ofList ((c :: r).map Char.toLower) ≠ "inf" :=
    hword 'i' ['n', 'f'] (hother 'i' (by decide) rfl)
  have hinfinity : String.ofList ((c :: r).map Char.toLower) ≠ "infinity" :=
    hword 'i' ['n', 'f', 'i', 'n', 'i', 't', 'y'] (hother 'i' (by decide) rfl)
  rw [Binary64.read?, hplain, Option.bind_some, Binary64.ofNumeral, hscan]
  split
  next negative body hbody =>
    -- no sign is taken off
    split at hbody
    · next r' hsign => exact absurd (List.cons.inj hsign).1.symm (hother '-' (by decide) rfl)
    · next r' hsign => exact absurd (List.cons.inj hsign).1.symm (hother '+' (by decide) rfl)
    · cases hbody
      dsimp only
      rw [if_neg hnan, if_neg fun h => h.elim hinf hinfinity, hscan]

end Reckoner
