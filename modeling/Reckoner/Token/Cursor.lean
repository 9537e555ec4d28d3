import Reckoner.Token.Scan

/-! # Reading tokens one at a time

A **cursor** stands in an expression and yields its tokens on demand. It remembers the expression
and how far it has been read, and nothing else.

* **`Cursor`** — the expression, the position, and the characters from there on.
* **`Cursor.open?`** — a cursor at the beginning of a nonempty expression.
* **`Cursor.next`** — the next token, or the fault that stands in its place, and the cursor after
  it. Blanks are skipped either way; a fault is not passed, so it is met again.
* **`Cursor.remaining`** — all tokens up to the end, by repeated `next`.
* **`tokenize`** — the tokens of an expression. -/

namespace Reckoner

/-- A position in an expression. -/
structure Cursor where
  /-- The whole expression. -/
  source : String
  /-- The number of characters that have been read. -/
  index : Nat
  /-- The characters that have not been read. -/
  rest : List Char
  /-- The unread characters are those after the read ones. -/
  rest_eq : rest = source.toList.drop index
  /-- No more characters are read than there are. -/
  index_le : index ≤ source.toList.length

namespace Cursor

/-- A cursor before the first character. -/
def atStart (source : String) : Cursor := ⟨source, 0, source.toList, by simp, by simp⟩

/-- A cursor before the first character of an expression that is given and is not empty. -/
def open? : Option String → Except Fault Cursor
  | none => .error (.unplaced .missingInput "")
  | some source =>
    if source = "" then .error (.unplaced .emptyInput "") else .ok (.atStart source)

/-- What is left after so many characters. -/
theorem length_rest (c : Cursor) : c.rest.length = c.source.toList.length - c.index := by
  rw [c.rest_eq, List.length_drop]

/-- Reads the given number of characters, or all that are left. -/
def advance (c : Cursor) (n : Nat) : Cursor where
  source := c.source
  index := c.index + (c.rest.take n).length
  rest := c.rest.drop n
  rest_eq := by
    have hl := c.length_rest
    have hi := c.index_le
    rw [c.rest_eq] at hl ⊢
    rw [List.drop_drop, List.length_take]
    by_cases h : n ≤ (c.source.toList.drop c.index).length
    · rw [Nat.min_eq_left h]
    · have h' := Nat.le_of_lt (Nat.lt_of_not_le h)
      rw [Nat.min_eq_right h', List.drop_eq_nil_of_le, List.drop_eq_nil_of_le]
      · omega
      · omega
  index_le := by
    have hl := c.length_rest
    have hi := c.index_le
    rw [List.length_take]
    omega

/-- Reading does not change the text. -/
@[simp] theorem source_advance (c : Cursor) (n : Nat) : (c.advance n).source = c.source := rfl

/-- So many characters are read. -/
@[simp] theorem rest_advance (c : Cursor) (n : Nat) : (c.advance n).rest = c.rest.drop n := rfl

/-- Reads the blanks before the next token. -/
def skipBlanks (c : Cursor) : Cursor := c.advance (c.rest.takeWhile isBlank).length

/-- Passing over blanks does not change the text. -/
@[simp] theorem source_skipBlanks (c : Cursor) : c.skipBlanks.source = c.source := rfl

/-- And it leaves no more than there was. -/
theorem length_rest_skipBlanks (c : Cursor) : c.skipBlanks.rest.length ≤ c.rest.length := by
  simp only [skipBlanks, rest_advance, List.length_drop]
  omega

/-- The **next token**, or the fault that stands in its place, and the cursor after it. -/
def next (c : Cursor) : Except Fault Token × Cursor :=
  let here := c.skipBlanks
  match scanToken here.rest with
  | .error f =>
    (.error ⟨f.cause, c.source, (here.index + f.start : Nat), f.length⟩, here)
  | .ok (kind, width) =>
    (.ok ⟨kind, String.ofList (here.rest.take width), here.index⟩, here.advance width)

/-- Nor does reading a token. -/
@[simp] theorem source_next (c : Cursor) : c.next.2.source = c.source := by
  simp only [next]
  split <;> simp

/-- Reading a token other than the end token uses up characters. -/
theorem length_rest_next {c : Cursor} {t : Token} (h : c.next.1 = .ok t)
    (hk : t.kind ≠ .finish) : c.next.2.rest.length < c.rest.length := by
  have hle := c.length_rest_skipBlanks
  simp only [next] at h ⊢
  cases hs : scanToken c.skipBlanks.rest with
  | error f => simp [hs] at h
  | ok p =>
    obtain ⟨kind, width⟩ := p
    simp only [hs, Except.ok.injEq] at h
    subst h
    have hne : c.skipBlanks.rest ≠ [] := by
      intro hnil
      rw [hnil] at hs
      simp only [scanToken, Except.ok.injEq, Prod.mk.injEq] at hs
      exact hk hs.1.symm
    have hw := scanToken_width_pos hne hs
    have : 0 < c.skipBlanks.rest.length := List.length_pos_iff.mpr hne
    simp only [rest_advance, List.length_drop]
    omega

/-- Every token from here to the end, the end token included, and the cursor after them; or the
first fault, and the cursor before it. -/
def remaining (c : Cursor) : Except Fault (List Token) × Cursor :=
  match h : c.next with
  | (.error f, c') => (.error f, c')
  | (.ok t, c') =>
    if hk : t.kind = .finish then (.ok [t], c')
    else
      have : c'.rest.length < c.rest.length := by
        have h₁ : c.next.1 = .ok t := by rw [h]
        have h₂ := length_rest_next h₁ hk
        rw [h] at h₂
        exact h₂
      match c'.remaining with
      | (.error f, c'') => (.error f, c'')
      | (.ok ts, c'') => (.ok (t :: ts), c'')
termination_by c.rest.length

end Cursor

/-- The **tokens of an expression**, the end token last. -/
def tokenize (source : Option String) : Except Fault (List Token) :=
  (Cursor.open? source).bind fun c => c.remaining.1

end Reckoner
