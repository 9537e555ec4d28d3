import Reckoner.Token.Cursor

/-! # The tokens of an expression as a list

`Cursor.remaining` reads tokens until the end token. This file describes its success as a relation
with one rule for each token, so that facts about token lists are inductions over it, and records
what the scanner promises about neighbouring tokens.

* **`Scans`** — what the first token of a text can be (`scans_scanToken`).
* **`Cursor.Yields`** — a cursor yields a list of tokens and stands at the end after them
  (`Cursor.remaining_eq_ok_iff`).
* **`Cursor.Passes`** — a cursor reads several tokens and comes to another one.
* **`Yields.split_finish`** — the end token comes last, and only there.
* **`tokenize_eq_ok_iff`** — the tokens of an expression are those that a cursor at its beginning
  yields.
* **`CallsOpen`** — the name of a function is followed directly by an opening bracket
  (`Yields.callsOpen`).
* **`Cursor.category_of_next_error`** — what keeps a token from being read is a lexical fault. -/

namespace Reckoner

/-! ## Reading one token -/

/-- What the **first token of a text** can be: the end token, a number or its fault, a name, an operator
or bracket, or an illegal character. -/
inductive Scans (cs : List Char) : Except ScanFault (TokenKind × Nat) → Prop
  | finish (empty : cs = []) : Scans cs (.ok (.finish, 0))
  | number {width : Nat} (starts : startsNumber cs = true) (scan : scanNumber cs = .ok width) :
      Scans cs (.ok (.number, width))
  | malformed {f : ScanFault} (starts : startsNumber cs = true) (scan : scanNumber cs = .error f) :
      Scans cs (.error f)
  | functionName {rest : List Char} (other : startsNumber cs = false)
      (opens : cs.drop (cs.takeWhile isNameChar).length = '(' :: rest) :
      Scans cs (.ok (.function, (cs.takeWhile isNameChar).length))
  | variableName (other : startsNumber cs = false) :
      Scans cs (.ok (.variable, (cs.takeWhile isNameChar).length))
  | lexeme {text : List Char} {kind : TokenKind} (listed : (text, kind) ∈ lexemes)
      (begins : text <+: cs) : Scans cs (.ok (kind, text.length))
  | illegal {c : Char} {rest : List Char} (one : cs = c :: rest) : Scans cs (.ok (.illegal, 1))

/-- **Every text begins with one of these.** -/
theorem scans_scanToken (cs : List Char) : Scans cs (scanToken cs) := by
  cases cs with
  | nil => exact .finish rfl
  | cons c r =>
    rw [scanToken]
    split
    · next starts =>
      cases scan : scanNumber (c :: r) with
      | error f => exact .malformed starts scan
      | ok width => exact .number starts scan
    · next other =>
      have other := Bool.eq_false_iff.mpr other
      split
      · -- a name, whose kind depends on the character after it
        dsimp only
        unfold nameKind
        split
        · next rest opens => exact .functionName other opens
        · exact .variableName other
      · split
        · next text kind hf =>
          have hfound : text.isPrefixOf (c :: r) = true := by simpa using List.find?_some hf
          exact .lexeme (List.mem_of_find?_eq_some hf) (List.isPrefixOf_iff_prefix.mp hfound)
        · exact .illegal rfl

namespace Cursor


-- One equation for each outcome of the scanner, and what each outcome of `next` says about it.

/-- What the next token is when the scanner measures one after the blanks. -/
theorem next_of_scanToken {c : Cursor} {kind : TokenKind} {width : Nat}
    (scan : scanToken c.skipBlanks.rest = .ok (kind, width)) :
    c.next = (.ok ⟨kind, String.ofList (c.skipBlanks.rest.take width), c.skipBlanks.index⟩,
      c.skipBlanks.advance width) := by
  rw [next, scan]

/-- What the fault of the next token is when the scanner refuses the text after the blanks: its span counts
from the start of the source, and the cursor stays after the blanks. -/
theorem next_of_scanToken_error {c : Cursor} {f : ScanFault}
    (scan : scanToken c.skipBlanks.rest = .error f) :
    c.next = (.error ⟨f.cause, c.source, (c.skipBlanks.index + f.start : Nat), f.length⟩,
      c.skipBlanks) := by
  rw [next, scan]

/-- What the scanner measured when a token was read. -/
theorem scanToken_of_next {c c' : Cursor} {t : Token} (read : c.next = (.ok t, c')) :
    ∃ width, scanToken c.skipBlanks.rest = .ok (t.kind, width) ∧
      t.literal = String.ofList (c.skipBlanks.rest.take width) ∧ t.offset = c.skipBlanks.index ∧
      c' = c.skipBlanks.advance width := by
  cases scan : scanToken c.skipBlanks.rest with
  | error f =>
    rw [next_of_scanToken_error scan] at read
    cases read
  | ok found =>
    obtain ⟨kind, width⟩ := found
    rw [next_of_scanToken scan] at read
    cases read
    exact ⟨width, rfl, rfl, rfl, rfl⟩

/-- Which fault of the scanner it was when no token was read. -/
theorem scanToken_of_next_error {c c' : Cursor} {f : Fault} (read : c.next = (.error f, c')) :
    ∃ g, scanToken c.skipBlanks.rest = .error g ∧
      f = ⟨g.cause, c.source, (c.skipBlanks.index + g.start : Nat), g.length⟩ := by
  cases scan : scanToken c.skipBlanks.rest with
  | error g =>
    rw [next_of_scanToken_error scan] at read
    cases read
    exact ⟨g, rfl, rfl⟩
  | ok found =>
    rw [next_of_scanToken scan] at read
    cases read

/-! ## Reading to the end -/

/-- A cursor **yields** the tokens `ts`, the end token last, and is `c'` after them. -/
inductive Yields : Cursor → List Token → Cursor → Prop
  | finish {c c' : Cursor} {t : Token} (read : c.next = (.ok t, c')) (last : t.kind = .finish) :
      Yields c [t] c'
  | step {c c' c'' : Cursor} {t : Token} {ts : List Token} (read : c.next = (.ok t, c'))
      (inner : t.kind ≠ .finish) (rest : Yields c' ts c'') : Yields c (t :: ts) c''

-- One equation for each outcome of `next`: later proofs never unfold `remaining`.

/-- The tokens that remain end with the token that marks the end. -/
theorem remaining_of_finish {c c' : Cursor} {t : Token} (read : c.next = (.ok t, c'))
    (last : t.kind = .finish) : c.remaining = (.ok [t], c') := by
  rw [remaining]
  split
  · next f c₁ h => rw [read] at h; cases h
  · next t₁ c₁ h =>
    rw [read] at h
    cases h
    rw [dif_pos last]

/-- The tokens that remain are the next one and those that remain after it. -/
theorem remaining_of_step {c c' : Cursor} {t : Token} (read : c.next = (.ok t, c'))
    (inner : t.kind ≠ .finish) :
    c.remaining = (c'.remaining.1.map (t :: ·), c'.remaining.2) := by
  rw [remaining]
  split
  · next f c₁ h => rw [read] at h; cases h
  · next t₁ c₁ h =>
    rw [read] at h
    cases h
    rw [dif_neg inner]
    split
    · next f c₂ h₂ => rw [h₂]; rfl
    · next ts c₂ h₂ => rw [h₂]; rfl

/-- A fault of the next token ends the tokens that remain. -/
theorem remaining_of_error {c c' : Cursor} {f : Fault} (read : c.next = (.error f, c')) :
    c.remaining = (.error f, c') := by
  rw [remaining]
  split
  · next f₁ c₁ h => rw [read] at h; cases h; rfl
  · next t₁ c₁ h => rw [read] at h; cases h

/-- Every token but the last uses up characters. -/
theorem length_rest_of_next {c c' : Cursor} {t : Token} (read : c.next = (.ok t, c'))
    (inner : t.kind ≠ .finish) : c'.rest.length < c.rest.length := by
  have shorter := length_rest_next (c := c) (t := t) (by rw [read]) inner
  rwa [read] at shorter

/-- Reading all tokens succeeds exactly along the rules of `Yields`. -/
theorem remaining_eq_ok_iff {c c' : Cursor} {ts : List Token} :
    c.remaining = (.ok ts, c') ↔ Yields c ts c' := by
  constructor
  · intro h
    -- the induction is on the number of unread characters
    induction n : c.rest.length using Nat.strongRecOn generalizing c ts with
    | ind n ih =>
      cases hc : c.next with
      | mk result c₁ =>
        cases result with
        | error f => rw [remaining_of_error hc] at h; cases h
        | ok t =>
          by_cases last : t.kind = .finish
          · rw [remaining_of_finish hc last] at h
            cases h
            exact .finish hc last
          · rw [remaining_of_step hc last] at h
            cases hr : c₁.remaining with
            | mk rest c₂ =>
              rw [hr] at h
              cases rest with
              | error f => cases h
              | ok us =>
                cases h
                exact .step hc last (ih _ (n ▸ length_rest_of_next hc last) hr rfl)
  · intro h
    induction h with
    | finish read last => exact remaining_of_finish read last
    | step read inner _ ih => rw [remaining_of_step read inner, ih]; rfl

/-! ## Reading several tokens -/

/-- A cursor **passes** tokens when it reads them and comes to another one. -/
inductive Passes : Cursor → List Token → Cursor → Prop
  | nil {c : Cursor} : Passes c [] c
  | cons {c c' c'' : Cursor} {t : Token} {ts : List Token} (read : c.next = (.ok t, c'))
      (inner : t.kind ≠ .finish) (rest : Passes c' ts c'') : Passes c (t :: ts) c''

namespace Passes

variable {c c' c'' : Cursor} {ts us : List Token} {last : Token}

/-- Passing over tokens and then over more of them. -/
theorem append (h : Passes c ts c') (rest : Passes c' us c'') : Passes c (ts ++ us) c'' := by
  induction h with
  | nil => exact rest
  | cons read inner _ ih => exact .cons read inner (ih rest)

/-- Tokens that are passed can be split anywhere. -/
theorem split (h : Passes c (ts ++ us) c'') : ∃ c', Passes c ts c' ∧ Passes c' us c'' := by
  induction ts generalizing c with
  | nil => exact ⟨c, .nil, h⟩
  | cons t ts ih =>
    cases h with
    | cons read inner rest =>
      obtain ⟨c', hts, hus⟩ := ih rest
      exact ⟨c', .cons read inner hts, hus⟩

/-- The last of the tokens is read after the others. -/
theorem concat_iff :
    Passes c (ts ++ [last]) c'' ↔
      last.kind ≠ .finish ∧ ∃ c', Passes c ts c' ∧ c'.next = (.ok last, c'') := by
  constructor
  · intro h
    obtain ⟨c', hts, hlast⟩ := h.split
    cases hlast with
    | cons read inner rest =>
      cases rest
      exact ⟨inner, c', hts, read⟩
  · rintro ⟨inner, c', hts, read⟩
    exact hts.append (.cons read inner .nil)

/-- Tokens that are passed are yielded with the end token after them. -/
theorem yields (h : Passes c ts c') (read : c'.next = (.ok last, c'')) (finish : last.kind = .finish) :
    Yields c (ts ++ [last]) c'' := by
  induction h with
  | nil => exact .finish read finish
  | cons first inner _ ih => exact .step first inner (ih read)

/-- Tokens that are yielded after others are yielded with them. -/
theorem append_yields (h : Passes c ts c') (rest : Yields c' us c'') : Yields c (ts ++ us) c'' := by
  induction h with
  | nil => exact rest
  | cons read inner _ ih => exact .step read inner (ih rest)

/-- After some of the tokens that it yields, a cursor yields the others. -/
theorem rest_yields (h : Passes c ts c') (all : Yields c (ts ++ us) c'') : Yields c' us c'' := by
  induction h with
  | nil => exact all
  | @cons c c₁ c' t ts read inner _ ih =>
    rw [List.cons_append] at all
    generalize hrest : ts ++ us = rest at all
    cases all with
    | finish read' last =>
      rw [read] at read'
      cases read'
      exact absurd last inner
    | step read' _ rest =>
      rw [read] at read'
      cases read'
      exact ih (hrest ▸ rest)

/-- The end token is not passed. -/
theorem inner (h : Passes c ts c') : ∀ t ∈ ts, t.kind ≠ .finish := by
  induction h with
  | nil => simp
  | cons read inner rest ih => exact List.forall_mem_cons.mpr ⟨inner, ih⟩

/-- The first of several tokens is the next token of the cursor. -/
theorem exists_next (h : Passes c ts c') (read : c'.next = (.ok last, c'')) :
    ∃ t rest c₁, ts ++ [last] = t :: rest ∧ c.next = (.ok t, c₁) := by
  cases h with
  | nil => exact ⟨last, [], c'', rfl, read⟩
  | cons first inner rest => exact ⟨_, _, _, rfl, first⟩

/-- The text stays the same. -/
theorem source_eq (h : Passes c ts c') : c'.source = c.source := by
  induction h with
  | nil => rfl
  | @cons c c' c'' t ts read inner rest ih =>
    have hsource := c.source_next
    rw [read] at hsource
    exact ih.trans hsource

end Passes

namespace Yields

variable {c c' : Cursor} {ts : List Token}

/-- The first of the tokens is the next token of the cursor. -/
theorem exists_next (h : Yields c ts c') : ∃ t rest c₁, ts = t :: rest ∧ c.next = (.ok t, c₁) := by
  cases h with
  | finish read last => exact ⟨_, [], _, rfl, read⟩
  | step read inner rest => exact ⟨_, _, _, rfl, read⟩

/-- The tokens before the end token are passed. -/
theorem exists_passes (h : Yields c ts c') :
    ∃ us last c₁, ts = us ++ [last] ∧ last.kind = .finish ∧ Passes c us c₁ ∧
      c₁.next = (.ok last, c') := by
  induction h with
  | finish read last => exact ⟨[], _, _, rfl, last, .nil, read⟩
  | step read inner rest ih =>
    obtain ⟨us, last, c₁, rfl, hlast, hus, hread⟩ := ih
    exact ⟨_ :: us, last, c₁, rfl, hlast, .cons read inner hus, hread⟩

/-- Each of the tokens is read after those before it. -/
theorem exists_next_of_append {us vs : List Token} {t : Token} (h : Yields c (us ++ t :: vs) c') :
    ∃ c₁ c₂, Passes c us c₁ ∧ c₁.next = (.ok t, c₂) := by
  induction us generalizing c with
  | nil =>
    obtain ⟨u, rest, c₁, hts, read⟩ := h.exists_next
    obtain ⟨rfl, -⟩ := List.cons.inj hts
    exact ⟨c, c₁, .nil, read⟩
  | cons u us ih =>
    rw [List.cons_append] at h
    generalize hrest : us ++ t :: vs = rest at h
    cases h with
    | finish read last => cases us <;> cases hrest
    | step read inner rest =>
      subst hrest
      obtain ⟨c₁, c₂, hus, ht⟩ := ih rest
      exact ⟨c₁, c₂, .cons read inner hus, ht⟩

/-- **The end token comes last**, and only there. -/
theorem split_finish (h : Yields c ts c') :
    ∃ us last, ts = us ++ [last] ∧ last.kind = .finish ∧ ∀ t ∈ us, t.kind ≠ .finish := by
  obtain ⟨us, last, c₁, rfl, hlast, hus, -⟩ := h.exists_passes
  exact ⟨us, last, rfl, hlast, hus.inner⟩

end Yields

end Cursor

/-! ## The tokens of an expression -/

/-- A cursor opens at the start of a text that is given and not empty. -/
@[simp] theorem Cursor.open?_eq_ok_iff {source : Option String} {c : Cursor} :
    Cursor.open? source = .ok c ↔ ∃ s, source = some s ∧ s ≠ "" ∧ c = Cursor.atStart s := by
  cases source with
  | none => simp [Cursor.open?]
  | some s =>
    by_cases hs : s = ""
    · simp [Cursor.open?, hs]
    · simp [Cursor.open?, hs, eq_comm]

/-- A source has tokens exactly when its text is not empty and the cursor at its start yields them. -/
@[simp] theorem tokenize_eq_ok_iff {source : Option String} {ts : List Token} :
    tokenize source = .ok ts ↔
      ∃ s c', source = some s ∧ s ≠ "" ∧ (Cursor.atStart s).Yields ts c' := by
  constructor
  · intro h
    rw [tokenize] at h
    cases hopen : Cursor.open? source with
    | error f => rw [hopen] at h; cases h
    | ok c =>
      rw [hopen] at h
      obtain ⟨s, hs, hne, rfl⟩ := Cursor.open?_eq_ok_iff.mp hopen
      exact ⟨s, (Cursor.atStart s).remaining.2, hs, hne,
        Cursor.remaining_eq_ok_iff.mp (Prod.ext h rfl)⟩
  · rintro ⟨s, c', rfl, hne, hyield⟩
    rw [tokenize, Cursor.open?_eq_ok_iff.mpr ⟨s, rfl, hne, rfl⟩]
    exact congrArg Prod.fst (Cursor.remaining_eq_ok_iff.mpr hyield)

/-! ## Names of functions -/

/-- The scanner calls a name a function's only when an opening bracket is next. -/
theorem scanToken_eq_function {cs : List Char} {width : Nat}
    (h : scanToken cs = .ok (.function, width)) : ∃ rest, cs.drop width = '(' :: rest := by
  have hscans := scans_scanToken cs
  rw [h] at hscans
  cases hscans with
  | functionName other opens => exact ⟨_, opens⟩
  | lexeme listed begins =>
    have noFunction : ∀ e ∈ lexemes, e.2 ≠ TokenKind.function := by decide
    exact absurd rfl (noFunction _ listed)

/-- An opening parenthesis is a token by itself. -/
@[simp] theorem scanToken_openParen (rest : List Char) :
    scanToken ('(' :: rest) = .ok (.openParen, 1) := by
  have hnumber : startsNumber ('(' :: rest) = false := by
    cases rest <;> rfl
  have hname : isNameStart '(' = false := by decide
  rw [scanToken, hnumber, hname]
  simp [lexemes, List.find?, List.isPrefixOf]

namespace Cursor

/-- A cursor at an opening bracket yields that bracket. -/
theorem next_of_rest_openParen {c : Cursor} {rest : List Char} (h : c.rest = '(' :: rest) :
    ∃ t c', c.next = (.ok t, c') ∧ t.kind = .openParen := by
  have hblank : isBlank '(' = false := by decide
  have hskip : c.skipBlanks.rest = '(' :: rest := by
    rw [skipBlanks, rest_advance, h, List.takeWhile_cons, hblank]
    rfl
  rw [next, hskip, scanToken_openParen]
  exact ⟨_, _, rfl, rfl⟩

/-- After the name of a function comes an opening bracket. -/
theorem next_of_function {c c' : Cursor} {t : Token} (read : c.next = (.ok t, c'))
    (hk : t.kind = .function) : ∃ u c'', c'.next = (.ok u, c'') ∧ u.kind = .openParen := by
  rw [next] at read
  split at read
  · cases read
  · next kind width hs =>
    simp only [Prod.mk.injEq, Except.ok.injEq] at read
    obtain ⟨rfl, rfl⟩ := read
    obtain rfl : kind = .function := hk
    obtain ⟨rest, hrest⟩ := scanToken_eq_function hs
    exact next_of_rest_openParen hrest

end Cursor

/-- The name of a function is **followed directly** by an opening bracket, wherever it stands. -/
def CallsOpen (ts : List Token) : Prop :=
  ∀ before name next after, ts = before ++ name :: next :: after → name.kind = .function →
    next.kind = .openParen

/-- Tokens that a cursor reads one after the other open the brackets of their calls. -/
theorem Cursor.Passes.callsOpen {c c' c'' : Cursor} {ts : List Token} {last : Token}
    (h : Passes c ts c') (read : c'.next = (.ok last, c'')) : CallsOpen (ts ++ [last]) := by
  induction h with
  | nil =>
    -- one token is too short for a name and a bracket
    intro before name next after hts
    have hlength := congrArg List.length hts
    simp at hlength
    omega
  | cons first inner rest ih =>
    intro before name next after hts hname
    rw [List.cons_append] at hts
    cases before with
    | nil =>
      -- the name is the first token, and the bracket is the token that is read after it
      obtain ⟨rfl, hrest⟩ := List.cons.inj hts
      obtain ⟨u, c₂, hu, hopen⟩ := next_of_function first hname
      obtain ⟨v, _, _, hv, hread⟩ := rest.exists_next read
      rw [hu] at hread
      cases hread
      obtain ⟨rfl, -⟩ := List.cons.inj (hv.symm.trans hrest)
      exact hopen
    | cons b before => exact ih read before name next after (List.cons.inj hts).2 hname

/-- The tokens that a cursor yields open the brackets of their calls. -/
theorem Cursor.Yields.callsOpen {c c' : Cursor} {ts : List Token} (h : Yields c ts c') :
    CallsOpen ts := by
  obtain ⟨us, last, c₁, rfl, -, hus, read⟩ := h.exists_passes
  exact hus.callsOpen read

/-! ## Faults -/

/-- What keeps a number from being read is lexical. -/
theorem category_of_scanNumber_error {cs : List Char} {f : ScanFault}
    (h : scanNumber cs = .error f) : f.cause.category = .lexical := by
  -- with or without an exponent, the last check is on the character after the number
  have hclose : ∀ width, closeNumber cs width = .error f → f.cause.category = .lexical := by
    intro width h
    unfold closeNumber at h
    split at h
    · split at h
      · cases h
        rfl
      · cases h
    · cases h
  simp only [scanNumber] at h
  split at h
  · split at h
    · split at h
      · cases h
        rfl
      · split at h
        · cases h
          rfl
        · exact hclose _ h
    · exact hclose _ h
  · cases h

/-- The scanner's faults are lexical. -/
theorem category_of_scanToken_error {cs : List Char} {f : ScanFault}
    (h : scanToken cs = .error f) : f.cause.category = .lexical := by
  have hscans := scans_scanToken cs
  rw [h] at hscans
  cases hscans with
  | malformed starts scan => exact category_of_scanNumber_error scan

/-- The faults of the next token are lexical. -/
theorem Cursor.category_of_next_error {c c' : Cursor} {f : Fault} (h : c.next = (.error f, c')) :
    f.category = .lexical := by
  obtain ⟨g, hscan, rfl⟩ := scanToken_of_next_error h
  exact category_of_scanToken_error hscan

/-- What keeps the remaining tokens from being read keeps one of them from being read. -/
theorem Cursor.exists_next_of_remaining_error {c : Cursor} {f : Fault} (h : c.remaining.1 = .error f) :
    ∃ c₁ c₂ : Cursor, c₁.next = (.error f, c₂) := by
  cases read : c.next with
  | mk result c' =>
    cases result with
    | error g =>
      rw [remaining_of_error read] at h
      cases h
      exact ⟨c, c', read⟩
    | ok t =>
      by_cases last : t.kind = .finish
      · rw [remaining_of_finish read last] at h
        cases h
      · have hshorter := length_rest_of_next read last
        rw [remaining_of_step read last] at h
        cases hrest : c'.remaining.1 with
        | error g =>
          rw [hrest] at h
          cases h
          exact exists_next_of_remaining_error hrest
        | ok ts =>
          rw [hrest] at h
          cases h
termination_by c.rest.length

/-- Without a text, or with an empty one, there is no cursor. -/
theorem Cursor.category_of_open?_error {source : Option String} {f : Fault}
    (h : open? source = .error f) : f.category = .lexical := by
  cases source with
  | none =>
    cases h
    rfl
  | some s =>
    rw [open?] at h
    split at h
    · cases h
      rfl
    · cases h

/-- **The faults of splitting an expression into tokens** are lexical. -/
theorem category_of_tokenize_error {source : Option String} {f : Fault}
    (h : tokenize source = .error f) : f.category = .lexical := by
  rw [tokenize] at h
  cases hopen : Cursor.open? source with
  | ok c =>
    rw [hopen] at h
    obtain ⟨c₁, c₂, read⟩ := Cursor.exists_next_of_remaining_error h
    exact Cursor.category_of_next_error read
  | error g =>
    rw [hopen] at h
    cases h
    exact Cursor.category_of_open?_error hopen

end Reckoner
