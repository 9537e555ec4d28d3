import Reckoner.Proofs.Token.MaximalMunch
import Reckoner.Proofs.Token.Spans

/-! # What goes on with a number

A letter, a digit, a point or an underscore that comes right after a number makes it malformed. The fault
covers the run of such characters at the place of the number. Where the number has no sign, that run takes
in the number and what goes on with it. A sign in the exponent is no character of the run: the fault then
ends before the sign, inside the number, and what goes on with the number is not in it.

* **`SignedExponent`** — a numeral with a sign in its exponent (`Numeral.isNameChar_or_signed`).
* **`run_of_unsigned`, `SignedExponent.run_eq`** — the run at the place of a numeral.
* **`Cursor.next_of_goesOn`** — the fault of a malformed number, and how far it reaches. -/

namespace Reckoner

/-! ## Signs in numerals -/

/-- A mantissa and the letter of an exponent, with a **sign** after them. -/
def SignedExponent (n m : List Char) (e : Char) : Prop :=
  Mantissa m ∧ (e = 'e' ∨ e = 'E') ∧ ∃ sign ds, (sign = '+' ∨ sign = '-') ∧ n = m ++ e :: sign :: ds

/-- The letter of an exponent stands in names. -/
@[simp] theorem isNameChar_of_letter {e : Char} (letter : e = 'e' ∨ e = 'E') : isNameChar e = true := by
  rcases letter with rfl | rfl <;> decide

/-- A sign does not stand in names, so the run of a malformed number ends before it. -/
@[simp] theorem isNameChar_of_sign {sign : Char} (h : sign = '+' ∨ sign = '-') :
    isNameChar sign = false := by
  rcases h with rfl | rfl <;> decide

/-- A mantissa consists of characters that names go on with. -/
theorem Mantissa.isNameChar {m : List Char} (h : Mantissa m) : ∀ c ∈ m, isNameChar c = true := by
  intro c hc
  cases h with
  | whole digits nonempty => exact isNameChar_of_isDigit (digits c hc)
  | pointed digits fraction nonempty =>
    rcases List.mem_append.mp hc with hc | hc
    · exact isNameChar_of_isDigit (digits c hc)
    · rcases List.mem_cons.mp hc with rfl | hc
      · decide
      · exact isNameChar_of_isDigit (fraction c hc)

/-- **A numeral** consists of such characters, unless it has a sign. -/
theorem Numeral.isNameChar_or_signed {n : List Char} (h : Numeral n) :
    (∀ c ∈ n, isNameChar c = true) ∨ ∃ m e, SignedExponent n m e := by
  cases h with
  | @intro m x mantissa exponent =>
    cases exponent with
    | absent =>
      rw [List.append_nil]
      exact .inl mantissa.isNameChar
    | @present e sign ds letter signed digits nonempty =>
      simp only [List.mem_cons, List.not_mem_nil, or_false] at signed
      rcases signed with rfl | rfl | rfl
      · refine .inl fun c hc => ?_
        rcases List.mem_append.mp hc with hc | hc
        · exact mantissa.isNameChar c hc
        · rcases List.mem_cons.mp hc with rfl | hc
          · exact isNameChar_of_letter letter
          · exact isNameChar_of_isDigit (digits c hc)
      · exact .inr ⟨m, e, mantissa, letter, '+', ds, .inl rfl, rfl⟩
      · exact .inr ⟨m, e, mantissa, letter, '-', ds, .inr rfl, rfl⟩

/-! ## The run at the place of a numeral -/

section Runs

variable {u n m r : List Char} {e x : Char}

/-- **Without a sign** the run takes in the numeral and the character after it. -/
theorem run_of_unsigned (after : u = n ++ x :: r) (goes : isNameChar x = true)
    (unsigned : ∀ c ∈ n, isNameChar c = true) : n ++ [x] <+: u.takeWhile isNameChar := by
  rw [after, List.takeWhile_append_of_pos unsigned, List.takeWhile_cons_of_pos goes]
  exact (List.prefix_append_right_inj n).mpr (List.prefix_append [x] _)

/-- **With a sign** the run ends before it. -/
theorem SignedExponent.run_eq (h : SignedExponent n m e) (starts : n <+: u) :
    u.takeWhile isNameChar = m ++ [e] := by
  obtain ⟨mantissa, letter, sign, ds, hsign, rfl⟩ := h
  obtain ⟨rest, rfl⟩ := starts
  have hstop : ¬ isNameChar sign = true := Bool.eq_false_iff.mp (isNameChar_of_sign hsign)
  rw [List.append_assoc, List.takeWhile_append_of_pos mantissa.isNameChar, List.cons_append,
    List.takeWhile_cons_of_pos (isNameChar_of_letter letter), List.cons_append,
    List.takeWhile_cons_of_neg hstop]

/-- The run that ends before a sign is shorter than the numeral. -/
theorem SignedExponent.length_lt (h : SignedExponent n m e) : (m ++ [e]).length < n.length := by
  obtain ⟨-, -, sign, ds, -, rfl⟩ := h
  simp only [List.length_append, List.length_cons, List.length_nil]
  omega

end Runs

/-! ## The fault -/

/-- The characters at the place of a cursor are those from its index on. -/
theorem Cursor.covers_of_prefix {c : Cursor} {x : List Char} (starts : x <+: c.rest) :
    Covers c.source c.index x.length x :=
  ⟨rfl, by rw [← c.rest_eq, ← List.prefix_iff_eq_take.mp starts]⟩

/-- **What goes on with a number** makes it malformed, unless a blank after the letter of an exponent is at
fault. Let `n` be the longest numeral at the place of a cursor, and `x` a letter, a digit, a point or an
underscore right after it. The fault begins where the numeral does and covers the longest run of such
characters, which its message quotes. The run takes in the numeral and `x` if and only if the numeral has
no sign; otherwise it is what comes before the sign. -/
theorem Cursor.next_of_goesOn (c : Cursor) {m n r : List Char} {x : Char}
    (mantissa : Longest Mantissa c.skipBlanks.rest m) (numeral : Longest Numeral c.skipBlanks.rest n)
    (after : c.skipBlanks.rest = n ++ x :: r) (goes : isNameChar x = true)
    (unspaced : ¬ SpacedExponent c.skipBlanks.rest m) :
    ∃ f run, c.next.1 = .error f ∧ f.kind = .invalidNumber ∧ f.source = c.source ∧
      f.offset = c.skipBlanks.index ∧ f.length = run.length ∧
      f.message = "Invalid number: '" ++ String.ofList run ++ "'" ∧
      Covers c.source c.skipBlanks.index run.length run ∧
      Longest (fun w => ∀ y ∈ w, isNameChar y = true) c.skipBlanks.rest run ∧
      (n ++ [x] <+: run ↔ ∀ m' e, ¬ SignedExponent n m' e) ∧
      ∀ m' e, SignedExponent n m' e → run = m' ++ [e] := by
  have hstarts : startsNumber c.skipBlanks.rest = true := by
    rw [after]
    exact numeral.shaped.startsNumber_eq (x :: r)
  have hfault : scanNumber c.skipBlanks.rest = .error (malformedNumber c.skipBlanks.rest) := by
    obtain ⟨m', n', hm, hn, -, hunspaced⟩ := exists_longest_numeral hstarts
    obtain rfl := hm.unique mantissa
    obtain rfl := hn.unique numeral
    rw [hunspaced unspaced, closeNumber_of_goesOn ⟨x, r, after, goes⟩]
  have hnext := next_of_startsNumber hstarts
  rw [hfault] at hnext
  have hrun := longest_takeWhile isNameChar c.skipBlanks.rest
  have hsigned : ∀ m' e, SignedExponent n m' e → c.skipBlanks.rest.takeWhile isNameChar = m' ++ [e] :=
    fun m' e h => h.run_eq numeral.starts
  refine ⟨_, _, hnext, rfl, rfl, rfl, rfl, rfl, covers_of_prefix hrun.starts, hrun, ?_, hsigned⟩
  constructor
  · -- a run that ends before the sign is too short
    intro reaches m' e h
    have hlength := reaches.length_le
    have hshort := h.length_lt
    rw [hsigned m' e h] at hlength
    simp only [List.length_append, List.length_singleton] at hlength hshort
    omega
  · intro unsigned
    refine run_of_unsigned after goes ?_
    exact numeral.shaped.isNameChar_or_signed.resolve_right fun ⟨m', e, h⟩ => unsigned m' e h

/-- The longest mantissa is the one that the scanner measures. -/
theorem longest_mantissa_take {u : List Char} (h : startsNumber u = true) :
    Longest Mantissa u (u.take (mantissaWidth u)) := by
  obtain ⟨m, rest, rfl, hwidth, hm⟩ := longest_mantissa h
  rwa [hwidth, List.take_left]

/-- The longest numeral in `1e+5x` is followed by `x`, which the fault does not reach. -/
theorem next_signedExponent :
    ∃ n x f, "1e+5x".toList = n ++ [x] ∧ Longest Numeral "1e+5x".toList n ∧ isNameChar x = true ∧
      (Cursor.atStart "1e+5x").next.1 = .error f ∧ f.kind = .invalidNumber ∧
      f.offset + f.length < n.length + 1 := by
  have hm : Longest Mantissa (['1'] ++ ['e', '+', '5', 'x']) ['1'] :=
    longest_mantissa_take (u := "1e+5x".toList) rfl
  have hx : Longest ExponentPart ['e', '+', '5', 'x'] ['e', '+', '5'] :=
    longest_exponent_present (r := ['+', '5', 'x']) (.inl rfl) (List.cons_ne_nil _ _)
  have hnext : (Cursor.atStart "1e+5x").next.1 = .error ⟨.invalidNumber "1e", "1e+5x", 0, 2⟩ := by
    decide +kernel
  exact ⟨['1', 'e', '+', '5'], 'x', _, rfl, hm.numeral rfl hx, rfl, hnext, rfl, by decide⟩

/-- The fault takes in a second point after an exponent, and ends before the sign of another exponent. -/
theorem next_of_goesOn_pointed_and_signed :
    (∃ f run, (Cursor.atStart " 4.2e1.0").next.1 = .error f ∧ f.offset = 1 ∧ f.length = run.length ∧
      "4.2e1.".toList <+: run) ∧
    ∃ f run, (Cursor.atStart "12.5e-30E").next.1 = .error f ∧ f.offset = 0 ∧ f.length = run.length ∧
      run = "12.5e".toList := by
  constructor
  · have hrest : (Cursor.atStart " 4.2e1.0").skipBlanks.rest =
        ['4', '.', '2'] ++ ['e', '1', '.', '0'] := by decide +kernel
    have hm : Longest Mantissa (['4', '.', '2'] ++ ['e', '1', '.', '0']) ['4', '.', '2'] :=
      longest_mantissa_take rfl
    have hx : Longest ExponentPart ['e', '1', '.', '0'] ['e', '1'] :=
      longest_exponent_present (r := ['1', '.', '0']) (.inl rfl) (List.cons_ne_nil _ _)
    have hunspaced : ¬ SpacedExponent (['4', '.', '2'] ++ ['e', '1', '.', '0']) ['4', '.', '2'] := by
      rintro ⟨e, b, r, hsplit, -, hblank⟩
      cases hsplit
      cases hblank
    have hn := hm.numeral rfl hx
    rw [← hrest] at hm hn hunspaced
    obtain ⟨f, run, hf, -, -, hoffset, hlength, -, -, -, hreaches, -⟩ :=
      (Cursor.atStart " 4.2e1.0").next_of_goesOn (x := '.') (r := ['0']) hm hn hrest rfl hunspaced
    refine ⟨f, run, hf, hoffset, hlength, hreaches.mpr ?_⟩
    rintro m' e ⟨-, -, sign, ds, hsign, hsplit⟩
    have hmem : sign ∈ ['4', '.', '2'] ++ ['e', '1'] := by simp [hsplit]
    rcases hsign with rfl | rfl <;> exact absurd hmem (by decide)
  · have hrest : (Cursor.atStart "12.5e-30E").skipBlanks.rest =
        ['1', '2', '.', '5'] ++ ['e', '-', '3', '0', 'E'] := by decide +kernel
    have hm : Longest Mantissa (['1', '2', '.', '5'] ++ ['e', '-', '3', '0', 'E'])
        ['1', '2', '.', '5'] := longest_mantissa_take rfl
    have hx : Longest ExponentPart ['e', '-', '3', '0', 'E'] ['e', '-', '3', '0'] :=
      longest_exponent_present (r := ['-', '3', '0', 'E']) (.inl rfl) (List.cons_ne_nil _ _)
    have hunspaced : ¬ SpacedExponent (['1', '2', '.', '5'] ++ ['e', '-', '3', '0', 'E'])
        ['1', '2', '.', '5'] := by
      rintro ⟨e, b, r, hsplit, -, hblank⟩
      cases hsplit
      cases hblank
    have hshaped := hm.shaped
    have hn := hm.numeral rfl hx
    rw [← hrest] at hm hn hunspaced
    obtain ⟨f, run, hf, -, -, hoffset, hlength, -, -, -, -, hsigned⟩ :=
      (Cursor.atStart "12.5e-30E").next_of_goesOn (x := 'E') (r := []) hm hn hrest rfl hunspaced
    exact ⟨f, run, hf, hoffset, hlength,
      hsigned ['1', '2', '.', '5'] 'e' ⟨hshaped, .inl rfl, '-', ['3', '0'], .inr rfl, rfl⟩⟩

end Reckoner
