import Reckoner.Proofs.Token.Comma
import Reckoner.Proofs.Token.Insertion

/-! # Reading the same text elsewhere

A cursor remembers nothing of what it has read: what it reads from a place on depends on the text there
alone, and so does not change when that text stands at another place, but for the places themselves. A
blank ends every token. So an expression that is made of two, with blanks between them, has the tokens of
the first one and then those of the second one.

* **`Token.moved`, `Fault.moved`** — a token or a fault that many characters later.
* **`Cursor.Ahead`** — cursors with the same text before them, blanks aside, at different places.
* **`Cursor.Ahead.remaining`, `Cursor.Ahead.afterNexts`** — what such cursors read.
* **`scanToken_append_blank`** — a token is not changed by what comes after a blank.
* **`Cursor.Extended`** — cursors at the same place of a text and of one that goes on with a blank.
* **`tokenize_relocates`** — tokens of the parts of an expression. -/

namespace Reckoner

/-- A token that many characters **later**. -/
def Token.moved (k : Nat) (t : Token) : Token := { t with offset := t.offset + k }

/-- A fault that many characters **later**, in another text. -/
def Fault.moved (source : String) (k : Nat) (f : Fault) : Fault :=
  { f with source := source, offset := f.offset + k }

/-! ## The same text at another place -/

namespace Cursor

/-- One cursor is **ahead** of another by `k` characters when both have the same text before them after
their blanks. -/
structure Ahead (k : Nat) (c d : Cursor) : Prop where
  rest : c.skipBlanks.rest = d.skipBlanks.rest
  index : c.skipBlanks.index = d.skipBlanks.index + k

variable {k : Nat} {c d : Cursor}

/-- The place where the blanks end depends on the text alone. -/
theorem Ahead.of_rest (rest : c.rest = d.rest) (index : c.index = d.index + k) : Ahead k c d where
  rest := by rw [skipBlanks, skipBlanks, rest_advance, rest_advance, rest]
  index := by
    show c.index + (c.rest.take _).length = d.index + (d.rest.take _).length + k
    rw [rest, index]
    omega

/-- **The next token**, or the fault in its place, is the same but for its place, and the cursors after it
are as far apart. -/
theorem Ahead.next (h : Ahead k c d) :
    c.next.1 = (d.next.1.map (Token.moved k)).mapError (Fault.moved c.source k) ∧
      Ahead k c.next.2 d.next.2 := by
  cases scan : scanToken d.skipBlanks.rest with
  | error f =>
    have scan' : scanToken c.skipBlanks.rest = .error f := by rw [h.rest, scan]
    rw [next_of_scanToken_error scan, next_of_scanToken_error scan', h.index]
    refine ⟨?_, .of_rest h.rest h.index⟩
    show Except.error _ = Except.error (Fault.mk _ _ _ _)
    congr 2
    push_cast
    omega
  | ok found =>
    obtain ⟨kind, width⟩ := found
    have scan' : scanToken c.skipBlanks.rest = .ok (kind, width) := by rw [h.rest, scan]
    rw [next_of_scanToken scan, next_of_scanToken scan', h.index, h.rest]
    refine ⟨rfl, .of_rest ?_ ?_⟩
    · rw [rest_advance, rest_advance, h.rest]
    · show c.skipBlanks.index + (c.skipBlanks.rest.take width).length =
        d.skipBlanks.index + (d.skipBlanks.rest.take width).length + k
      rw [h.rest, h.index]
      omega

/-- **However many tokens have been asked for**, the cursors are as far apart. -/
theorem Ahead.afterNexts (h : Ahead k c d) (n : Nat) : Ahead k (c.afterNexts n) (d.afterNexts n) := by
  induction n with
  | zero => exact h
  | succ n ih => exact ih.next.2

/-- **All tokens up to the end**, or the first fault, are the same but for their places. -/
theorem Ahead.remaining (h : Ahead k c d) :
    c.remaining.1 =
      (d.remaining.1.map (List.map (Token.moved k))).mapError (Fault.moved c.source k) := by
  -- the induction is on the number of unread characters
  induction n : d.rest.length using Nat.strongRecOn generalizing c d with
  | ind n ih =>
    obtain ⟨hnext, hafter⟩ := h.next
    have hsource := c.source_next
    cases read : d.next with
    | mk result d' =>
      cases read' : c.next with
      | mk result' c' =>
        rw [read, read'] at hnext hafter
        rw [read'] at hsource
        cases result with
        | error f =>
          cases hnext
          rw [remaining_of_error read, remaining_of_error read']
          rfl
        | ok t =>
          cases hnext
          by_cases last : t.kind = .finish
          · have last' : (t.moved k).kind = .finish := last
            rw [remaining_of_finish read last, remaining_of_finish read' last']
            rfl
          · have inner' : (t.moved k).kind ≠ .finish := last
            have hrest := ih _ (n ▸ length_rest_of_next read last) hafter rfl
            rw [remaining_of_step read last, remaining_of_step read' inner', hrest, hsource]
            cases d'.remaining.1 <;> rfl

/-- A cursor anywhere in an expression is ahead of one at the beginning of what is left. -/
theorem ahead_atStart (c : Cursor) : Ahead c.index c (.atStart (String.ofList c.rest)) :=
  .of_rest String.toList_ofList.symm (Nat.zero_add _).symm

end Cursor

/-- The tokens of an expression are those that a cursor at its beginning reads. -/
@[simp] theorem tokenize_of_ne_empty {s : String} (nonempty : s ≠ "") :
    tokenize (some s) = (Cursor.atStart s).remaining.1 := by
  rw [tokenize, Cursor.open?_eq_ok_iff.mpr ⟨s, rfl, nonempty, rfl⟩]
  rfl

/-! ## A blank ends every token -/

/-- A blank does not stand in names. -/
@[simp] theorem isNameChar_of_isBlank {b : Char} (blank : isBlank b = true) : isNameChar b = false := by
  refine Bool.eq_false_iff.mpr fun hname => ?_
  rw [isBlank_eq_false_of_isNameChar hname] at blank
  cases blank

/-- No blank is in an operator. -/
theorem blank_not_mem_lexeme {b : Char} (blank : isBlank b = true) :
    ∀ e ∈ lexemes, b ∉ e.1 := by
  have hvisible : ∀ e ∈ lexemes, e.1.all (!isBlank ·) = true := by decide
  intro e he hb
  have hletter := List.all_eq_true.mp (hvisible e he) b hb
  rw [blank] at hletter
  cases hletter

section Blanks

variable {x y : List Char} {b : Char} {kind : TokenKind}

/-- A text begins with the same operator before a blank. -/
@[simp] theorem find?_lexemes_append_blank (blank : isBlank b = true) (u : List Char) :
    lexemes.find? (fun (text, _) => text.isPrefixOf (x ++ b :: u)) =
      lexemes.find? (fun (text, _) => text.isPrefixOf x) :=
  List.find?_congr fun e he => isPrefixOf_append_cons u (blank_not_mem_lexeme blank e he) x

/-- A token at the end of a text is not changed by what comes after a blank. -/
theorem scanToken_append_blank_of_end (nonempty : x ≠ []) (blank : isBlank b = true) (u : List Char)
    (h : scanToken x = .ok (kind, x.length)) : scanToken (x ++ b :: u) = .ok (kind, x.length) := by
  have hstop := isNameChar_of_isBlank blank
  have hstarts := startsNumber_append_cons u (stop_of_isNameChar hstop).1 nonempty
  by_cases starts : startsNumber x = true
  · -- a number ends where nothing goes on with it
    rw [scanToken_of_startsNumber starts] at h
    cases scan : scanNumber x with
    | error f =>
      rw [scan] at h
      cases h
    | ok width =>
      rw [scan] at h
      obtain ⟨rfl, rfl⟩ := Prod.mk.inj (Except.ok.inj h)
      rw [← List.append_nil x] at starts
      obtain ⟨hnumeral, -⟩ := numeral_of_scanNumber starts (by rw [List.append_nil, scan])
      exact hnumeral.scanToken_eq fun c hc => Option.some.inj hc ▸ hstop
  · have hlexeme := find?_lexemes_append_blank (x := x) blank u
    have hname := takeWhile_append_cons hstop x u
    have hwidth := length_takeWhile_le isNameChar x
    have hopening : b ≠ '(' := by
      rintro rfl
      cases blank
    have hkind := nameKind_append_cons u hopening (x.drop (x.takeWhile isNameChar).length)
    rw [← List.drop_append_of_le_length hwidth] at hkind
    -- names and operators are looked for alike
    obtain ⟨c, r, rfl⟩ := List.exists_cons_of_ne_nil nonempty
    rw [List.cons_append] at hstarts hlexeme hname hkind ⊢
    rw [← h]
    simp only [scanToken, hstarts, starts, Bool.false_eq_true, if_false, hname, hkind, hlexeme]

/-- **A token is not changed** by what comes after a blank. -/
theorem scanToken_append_blank (nonempty : x ≠ []) (blank : isBlank b = true) (u : List Char)
    (h : scanToken (x ++ y) = .ok (kind, x.length)) :
    scanToken (x ++ (y ++ b :: u)) = .ok (kind, x.length) := by
  cases y with
  | nil =>
    rw [List.append_nil] at h
    exact scanToken_append_blank_of_end nonempty blank u h
  | cons c r => exact scanToken_congr (y := c :: r) nonempty rfl h

end Blanks

/-! ## A text that goes on with a blank -/

namespace Cursor

/-- A cursor stands in a text that goes on with `u` where another one, at the same place, has the text
without `u` before it. -/
structure Extended (u : List Char) (c d : Cursor) : Prop where
  index : d.index = c.index
  rest : d.rest = c.rest ++ u

variable {c c' d : Cursor} {t : Token} {ts : List Token} {b : Char} {u : List Char}

/-- The starts of a text and of the text that goes on with `v`. -/
theorem extended_atStart (s v : String) : Extended v.toList (.atStart s) (.atStart (s ++ v)) where
  index := rfl
  rest := String.toList_append

/-- **A token** is also read in a text that goes on with a blank. -/
theorem Extended.next (h : Extended (b :: u) c d) (blank : isBlank b = true)
    (read : c.next = (.ok t, c')) (inner : t.kind ≠ .finish) :
    ∃ d', d.next = (.ok t, d') ∧ Extended (b :: u) c' d' := by
  obtain ⟨blanks, hrest, hblank, hvisible, hoffset, hindex, hfinish⟩ := exists_text_of_next read
  have hne : t.literal.toList ≠ [] := fun hnil =>
    inner (hfinish.mpr (String.toList_eq_nil_iff.mp hnil))
  have hscan := scanToken_append_blank hne blank u (scanToken_literal read)
  have hrest' : d.rest = blanks ++ (t.literal.toList ++ (c'.rest ++ b :: u)) := by
    rw [h.rest, hrest, List.append_assoc, List.append_assoc]
  obtain ⟨d', hnext, hd', hindex'⟩ := next_of_rest hrest' hblank hne
    (fun z hz => hvisible z (List.mem_of_mem_head? hz)) hscan
  rw [String.ofList_toList, h.index, ← hoffset] at hnext
  refine ⟨d', hnext, ?_, hd'⟩
  rw [hindex', h.index, hindex, Token.stop, hoffset, String.length_toList]

/-- **Several tokens** are also passed in a text that goes on with a blank. -/
theorem Extended.passes (h : Extended (b :: u) c d) (blank : isBlank b = true)
    (passes : c.Passes ts c') : ∃ d', d.Passes ts d' ∧ Extended (b :: u) c' d' := by
  induction passes generalizing d with
  | nil => exact ⟨d, .nil, h⟩
  | cons read inner rest ih =>
    obtain ⟨d₁, hnext, h₁⟩ := h.next blank read inner
    obtain ⟨d', hpasses, h'⟩ := ih h₁
    exact ⟨d', .cons hnext inner hpasses, h'⟩

/-- What has been read and what has not make up the expression. -/
theorem index_add_length_rest (c : Cursor) : c.index + c.rest.length = c.source.length := by
  have hlength := c.length_rest
  have hle := c.index_le
  rw [← String.length_toList]
  omega

/-- **Where only blanks are left**, a cursor in a text that goes on with blanks and another text is ahead of
one at the beginning of the other text. -/
theorem Extended.ahead {w v : String} (h : Extended (w ++ v).toList c d)
    (blanks : ∀ x ∈ w.toList, isBlank x = true) (read : c.next = (.ok t, c')) (last : t.kind = .finish)
    (size : d.source.length = c.source.length + w.length + v.length) :
    Ahead (c.source.length + w.length) d (.atStart v) := by
  have hc : ∀ x ∈ c.rest, isBlank x = true := by
    obtain ⟨width, hscan, -, -, -⟩ := scanToken_of_next read
    rw [last] at hscan
    have hnil := scanToken_eq_finish hscan
    rw [skipBlanks, rest_advance, drop_length_takeWhile] at hnil
    exact List.dropWhile_eq_nil_iff.mp hnil
  have hrest : d.skipBlanks.rest = (atStart v).skipBlanks.rest := by
    rw [skipBlanks, skipBlanks, rest_advance, rest_advance, drop_length_takeWhile,
      drop_length_takeWhile, h.rest, List.dropWhile_append_of_pos hc, String.toList_append,
      List.dropWhile_append_of_pos blanks]
    rfl
  refine ⟨hrest, ?_⟩
  have hd := d.skipBlanks.index_add_length_rest
  have hv := (atStart v).skipBlanks.index_add_length_rest
  rw [hrest, source_skipBlanks, size] at hd
  rw [source_skipBlanks] at hv
  have hsource : (atStart v).source.length = v.length := rfl
  omega

end Cursor

/-- **The tokens of the parts of an expression.** Blanks between two expressions keep their tokens apart:
first come those of the first one, without its end token, and then those of the second one, as many
characters later as are before it. And from any place on, a cursor reads what one at the beginning of the
rest of the expression reads, that many characters later, whether these are tokens or a fault, and however
often it is asked. -/
theorem tokenize_relocates :
    (∀ (a w b : String) (ts us : List Token), tokenize (some a) = .ok ts → tokenize (some b) = .ok us →
      w ≠ "" → (∀ x ∈ w.toList, isBlank x = true) →
      ∃ inner, ts = inner ++ [⟨.finish, "", a.length⟩] ∧
        tokenize (some (a ++ w ++ b)) =
          .ok (inner ++ us.map (Token.moved (a.length + w.length)))) ∧
    ∀ c : Cursor, c.index < c.source.length →
      c.remaining.1 =
        ((tokenize (some (String.ofList (c.source.toList.drop c.index)))).map
          (List.map (Token.moved c.index))).mapError (Fault.moved c.source c.index) ∧
      ∀ n, (c.afterNexts n).next.1 =
        (((Cursor.atStart (String.ofList (c.source.toList.drop c.index))).afterNexts n).next.1.map
          (Token.moved c.index)).mapError (Fault.moved c.source c.index) := by
  constructor
  · intro a w b ts us ha hb nonempty blanks
    obtain ⟨_, c', hsome, -, hyields⟩ := tokenize_eq_ok_iff.mp ha
    cases hsome
    obtain ⟨_, d', hsome', hbempty, hyields'⟩ := tokenize_eq_ok_iff.mp hb
    cases hsome'
    obtain ⟨inner, rfl, -⟩ := hyields.exists_nonempty
    refine ⟨inner, rfl, ?_⟩
    obtain ⟨passed, last, c, hsplit, hlast, hpasses, read⟩ := hyields.exists_passes
    obtain ⟨rfl, -⟩ := List.append_inj' hsplit rfl
    -- the first tokens are passed, and then only blanks are left before the others
    obtain ⟨x, r, hw⟩ := List.exists_cons_of_ne_nil (l := w.toList)
      (fun hnil => nonempty (String.toList_eq_nil_iff.mp hnil))
    have hstart := Cursor.extended_atStart a (w ++ b)
    rw [String.toList_append, hw, List.cons_append] at hstart
    obtain ⟨d, hpassed, hextended⟩ := hstart.passes (blanks x (hw ▸ List.mem_cons_self ..)) hpasses
    rw [← List.cons_append, ← hw, ← String.toList_append] at hextended
    have hsize : d.source.length = c.source.length + w.length + b.length := by
      rw [hpassed.source_eq, hpasses.source_eq]
      show (a ++ (w ++ b)).length = a.length + w.length + b.length
      rw [String.length_append, String.length_append, Nat.add_assoc]
    have hahead := (hextended.ahead blanks read hlast hsize).remaining
    rw [hpasses.source_eq, ← tokenize_of_ne_empty hbempty, hb] at hahead
    have hrest : d.Yields (us.map (Token.moved (a.length + w.length))) d.remaining.2 :=
      Cursor.remaining_eq_ok_iff.mp (Prod.ext hahead rfl)
    have hne : a ++ (w ++ b) ≠ "" := by
      intro hempty
      exact nonempty (String.append_eq_empty_iff.mp (String.append_eq_empty_iff.mp hempty).2).1
    rw [String.append_assoc]
    exact tokenize_eq_ok_iff.mpr ⟨_, _, rfl, hne, hpassed.append_yields hrest⟩
  · intro c hc
    have hahead := c.ahead_atStart
    rw [c.rest_eq] at hahead
    have hne : String.ofList (c.source.toList.drop c.index) ≠ "" := by
      intro hempty
      rw [← String.ofList_nil, String.ofList_inj, List.drop_eq_nil_iff, String.length_toList] at hempty
      exact absurd hc (Nat.not_lt_of_le hempty)
    rw [tokenize_of_ne_empty hne]
    refine ⟨hahead.remaining, fun n => ?_⟩
    have hnext := (hahead.afterNexts n).next.1
    rwa [c.source_afterNexts] at hnext

/-- Two halves of an operator stay apart, and a cursor before a fault meets it where it stands. -/
theorem tokenize_relocates_halves :
    (tokenize (some "4<") = .ok [⟨.number, "4", 0⟩, ⟨.illegal, "<", 1⟩, ⟨.finish, "", 2⟩] ∧
      tokenize (some "<x") = .ok [⟨.illegal, "<", 0⟩, ⟨.variable, "x", 1⟩, ⟨.finish, "", 2⟩] ∧
      tokenize (some ("4<" ++ " \u3000" ++ "<x")) = .ok [⟨.number, "4", 0⟩, ⟨.illegal, "<", 1⟩,
        ⟨.illegal, "<", 4⟩, ⟨.variable, "x", 5⟩, ⟨.finish, "", 6⟩]) ∧
    ((Cursor.atStart "7*2e 1").advance 2).remaining.1 = .error ⟨.exponentSpacing, "7*2e 1", 3, 2⟩ := by
  obtain ⟨parts, places⟩ := tokenize_relocates
  constructor
  · have ha : tokenize (some "4<") =
        .ok [⟨.number, "4", 0⟩, ⟨.illegal, "<", 1⟩, ⟨.finish, "", 2⟩] := by decide +kernel
    have hb : tokenize (some "<x") =
        .ok [⟨.illegal, "<", 0⟩, ⟨.variable, "x", 1⟩, ⟨.finish, "", 2⟩] := by decide +kernel
    obtain ⟨inner, hsplit, hjoined⟩ := parts "4<" " \u3000" "<x" _ _ ha hb (by decide)
      (List.all_eq_true.mp (by decide))
    have hinner : inner = [⟨.number, "4", 0⟩, ⟨.illegal, "<", 1⟩] :=
      (List.append_inj' hsplit.symm rfl).1
    subst hinner
    exact ⟨ha, hb, hjoined⟩
  · have hplace := (places ((Cursor.atStart "7*2e 1").advance 2) (by decide)).1
    have hrest : tokenize (some (String.ofList (((Cursor.atStart "7*2e 1").advance 2).source.toList.drop
        ((Cursor.atStart "7*2e 1").advance 2).index))) = .error ⟨.exponentSpacing, "2e 1", 1, 2⟩ := by
      decide +kernel
    rw [hplace, hrest]
    rfl

end Reckoner
