import Reckoner.Proofs.Postfix.Likeness
import Reckoner.Proofs.Token.Comma

/-! # The first fault decides

A fault that is found before an expression ends is found as well when more text is written after a
comma: the tokens up to the fault are the same, and so is what is done with them.

* **`Likeness.same`** — tokens that are equal.
* **`Assembler.Step.kind_of_finish`** — the faults that are found at the end of an expression.
* **`assemble_append_of_error`** — an earlier fault stays the same, whatever is written after it. -/

namespace Reckoner

/-- The tokens of two texts are **the same**. -/
def Likeness.same : Likeness := .verbatim fun i j => j = i

/-- The same text moves no place. -/
theorem Likeness.still_same : Likeness.same.Still := fun _ _ h => h

/-- Faults that correspond in texts with the same tokens are the same but for the text. -/
theorem Likeness.Faults.eq_of_same {f g : Fault} (h : Likeness.same.Faults f g) :
    g = { f with source := g.source } := by
  obtain ⟨cause, source, offset, length⟩ := g
  obtain ⟨hoffset, hlength⟩ := Span.mk.inj (h.span.eq Likeness.still_same)
  have hcause : cause = f.cause := h.cause.trans f.cause.respell_id
  obtain rfl : offset = f.offset := hoffset
  obtain rfl : length = f.length := hlength
  rw [hcause]

/-- What is found **at the end** of an expression: an operand is due, or a bracket is open. -/
theorem Assembler.Step.kind_of_finish {a a' : Assembler} {t : Token} {e : Expectation} {f : Fault}
    (last : t.kind = .finish) (h : Step a t e (.fault f) a') :
    f.kind = .unclosedParen ∨ f.kind = .missingOperand ∧ f.offset = t.offset := by
  cases h with
  | unclosed kind first => exact .inl rfl
  | endsBeforeOperand due kind => exact .inr ⟨rfl, rfl⟩
  | notAnOperand due sign kind => exact absurd (by simp [last]) kind
  | missingOperator sign kind => exact absurd (by simp [last]) kind
  | _ => simp_all

/-- Cursors before a comma have the same tokens and the same faults, up to the end. -/
theorem Cursor.Before.nexts {u : List Char} {c d : Cursor} (h : Before u c d)
    (inner : ∀ t c', c.next = (.ok t, c') → t.kind ≠ .finish) :
    Likeness.same.Nexts (Before u) c.next d.next := by
  cases read : c.next with
  | mk result c' =>
    cases result with
    | error f =>
      rw [h.next_error read]
      obtain ⟨g, -, rfl⟩ := scanToken_of_next_error read
      exact .fault ⟨g.cause.respell_id.symm, .of_begins rfl _⟩
    | ok t =>
      obtain ⟨d', read', hrest⟩ := h.next read (inner t c' read)
      rw [read']
      exact .token ⟨rfl, rfl, rfl⟩ fun _ => hrest

/-- **The first fault decides.** When a fault is found before an expression ends, that is, when it is no
bracket left open and no operand missing at the end, then the expression has the same fault, at the same
place, with a comma and any other text after it. -/
theorem assemble_append_of_error {s u : String} {maxDepth : Int} {f : Fault} (nonempty : s ≠ "")
    (h : assemble (some s) maxDepth = .error f)
    (early : f.kind ≠ .unclosedParen ∧ ¬ (f.kind = .missingOperand ∧ f.offset = s.length)) :
    assemble (some (s ++ "," ++ u)) maxDepth = .error { f with source := s ++ "," ++ u } := by
  have hne : s ++ "," ++ u ≠ "" := by
    intro hempty
    have hlength := congrArg String.length hempty
    simp [String.length_append] at hlength
  obtain ⟨a, e, c, hrequests, hends⟩ :=
    Assembler.exists_ends (.start s maxDepth) .operand (.atStart s)
  rw [← assemble_eq_resume nonempty, h] at hends
  -- the fault is not found at the end token
  have inner : ∀ t c', c.next = (.ok t, c') → t.kind ≠ .finish := by
    intro t c' read last
    cases hends with
    | unreadable read' =>
      rw [read] at read'
      cases read'
    | fault read' accepted =>
      rw [read] at read'
      cases read'
      have hplace := Cursor.offset_of_next_finish read last
      rw [hrequests.source_eq.2] at hplace
      rcases (Assembler.step_of_accept accepted).kind_of_finish last with hkind | ⟨hkind, hoffset⟩
      · exact early.1 hkind
      · exact early.2 ⟨hkind, by rw [hoffset, hplace]; rfl⟩
  obtain ⟨b, e', d, hrequests', hassembler, hexpectation, hbefore⟩ :=
    Likeness.requests Cursor.Before.nexts (Likeness.assemblers_start s (s ++ "," ++ u) maxDepth)
      .operand (Cursor.before_atStart s u) hrequests
  have hresults := Likeness.ends hassembler hexpectation (hbefore.nexts inner) hends
  rw [← hrequests'.resume_eq, ← assemble_eq_resume hne] at hresults
  generalize hg : assemble (some (s ++ "," ++ u)) maxDepth = result at hresults ⊢
  cases hresults with
  | fault alike =>
    rw [alike.eq_of_same, source_of_assemble_error hg]
    rfl

/-- The second comma is misplaced as the first one is, and the bracket that nothing opens does not
matter. -/
theorem assemble_append_of_error_misplaced :
    assemble (some "2*pi,") 256 = .error ⟨.misplacedComma, "2*pi,", 4, 1⟩ ∧
      assemble (some ("2*pi," ++ "," ++ ")$")) 256 = .error ⟨.misplacedComma, "2*pi,,)$", 4, 1⟩ := by
  have h : assemble (some "2*pi,") 256 = .error ⟨.misplacedComma, "2*pi,", 4, 1⟩ := by
    decide +kernel
  exact ⟨h, assemble_append_of_error (by decide) h ⟨by decide, by decide⟩⟩

end Reckoner
