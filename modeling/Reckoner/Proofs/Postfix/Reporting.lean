import Reckoner.Evaluate
import Reckoner.Proofs.Postfix.Acceptance
import Reckoner.Proofs.Token.Spans

/-! # Faults that cannot be reported

The message of a fault cannot be written if it names an integer with too many digits. The faults of an
assembly name counts, and the limit on brackets; so the only fault that may not be reported is that of a
bracket beyond a limit that is far below zero.

* **`Assembler.Step.not_isOverlong`** — the other faults of a token can be reported.
* **`isOverlong_iff_of_assemble_error`** — when the fault of an expression cannot be reported.
* **`parse_eq_ok_iff`, `parse_eq_error`** — what the caller of an assembly gets.
* **`farBelowZero`** — a limit that cannot be written. -/

namespace Reckoner

/-! ## The faults of tokens -/

/-- What keeps a token from being read can be reported. -/
theorem Cursor.not_isOverlong_of_next_error {c c' : Cursor} {f : Fault} (read : c.next = (.error f, c')) :
    f.cause.isOverlong = false ∧ f.kind ≠ .nestingTooDeep := by
  obtain ⟨g, hscan, rfl⟩ := scanToken_of_next_error read
  obtain ⟨-, ⟨-, -, -, -, -, -, rfl⟩ | rfl⟩ := scanToken_eq_error hscan
  · exact ⟨rfl, nofun⟩
  · exact ⟨rfl, nofun⟩

/-- So can what keeps an expression from being read at all. -/
theorem Cursor.not_isOverlong_of_open?_error {source : Option String} {f : Fault}
    (h : open? source = .error f) : f.cause.isOverlong = false ∧ f.kind ≠ .nestingTooDeep := by
  cases source with
  | none =>
    cases h
    exact ⟨rfl, show FaultKind.emptyInput ≠ .nestingTooDeep by decide⟩
  | some s =>
    rw [open?] at h
    split at h
    · cases h
      exact ⟨rfl, show FaultKind.emptyInput ≠ .nestingTooDeep by decide⟩
    · cases h

/-- So can what keeps an expression from being split into tokens. -/
theorem not_isOverlong_of_tokenize_error {source : Option String} {f : Fault}
    (h : tokenize source = .error f) : f.cause.isOverlong = false := by
  rw [tokenize] at h
  cases hopen : Cursor.open? source with
  | ok c =>
    rw [hopen] at h
    obtain ⟨c₁, c₂, read⟩ := Cursor.exists_next_of_remaining_error h
    exact (Cursor.not_isOverlong_of_next_error read).1
  | error g =>
    rw [hopen] at h
    cases h
    exact (Cursor.not_isOverlong_of_open?_error hopen).1

namespace Assembler

variable {a a' : Assembler} {c c' : Cursor} {e e' : Expectation} {t : Token} {f : Fault}

/-- **A token's fault** is that of a bracket beyond the limit, or one that can be reported. -/
theorem Step.not_isOverlong (step : Step a t e (.fault f) a') :
    f.cause = .nestingTooDeep a.maxDepth ∨ f.cause.isOverlong = false ∧ f.kind ≠ .nestingTooDeep := by
  generalize hp : Progress.fault f = progress at step
  cases step with
  | tooDeep => cases hp; exact .inl rfl
  | illegal => cases hp; exact .inr ⟨rfl, nofun⟩
  | unknownVariable => cases hp; exact .inr ⟨rfl, nofun⟩
  | unknownFunction => cases hp; exact .inr ⟨rfl, nofun⟩
  | endsBeforeOperand => cases hp; exact .inr ⟨rfl, nofun⟩
  | notAnOperand => cases hp; exact .inr ⟨rfl, nofun⟩
  | emptyParens => cases hp; exact .inr ⟨rfl, nofun⟩
  | misplacedComma => cases hp; exact .inr ⟨rfl, nofun⟩
  | arityMismatch => cases hp; exact .inr ⟨rfl, nofun⟩
  | unmatchedClose => cases hp; exact .inr ⟨rfl, nofun⟩
  | unclosed => cases hp; exact .inr ⟨rfl, nofun⟩
  | missingOperator => cases hp; exact .inr ⟨rfl, nofun⟩
  | _ => cases hp

/-- A pass keeps the limit on brackets. -/
theorem Requests.maxDepth_eq (h : Requests a e c a' e' c') : a'.maxDepth = a.maxDepth := by
  induction h with
  | first => rfl
  | next before read accepted ih => exact (maxDepth_of_accept accepted).trans ih

/-- So does the end of a pass. -/
theorem Ends.maxDepth_eq {result : Except Fault Program} (h : Ends a e c result a' c') :
    a'.maxDepth = a.maxDepth := by
  cases h with
  | unreadable read => rfl
  | fault read accepted => exact maxDepth_of_accept accepted
  | complete read accepted => exact maxDepth_of_accept accepted

/-- **The fault of a pass** cannot be reported if and only if it is that of a bracket, and the limit on
brackets has too many digits and is negative. -/
theorem Ends.isOverlong_iff (h : Ends a e c (.error f) a' c') :
    f.cause.isOverlong = true ↔ f.kind = .nestingTooDeep ∧ isOverlong (min a.maxDepth 0) = true := by
  have hother : f.cause.isOverlong = false ∧ f.kind ≠ .nestingTooDeep →
      (f.cause.isOverlong = true ↔ f.kind = .nestingTooDeep ∧ isOverlong (min a.maxDepth 0) = true) := by
    rintro ⟨hshort, hkind⟩
    rw [hshort]
    exact iff_of_false Bool.false_ne_true fun h => hkind h.1
  cases h with
  | unreadable read => exact hother (Cursor.not_isOverlong_of_next_error read)
  | fault read accepted =>
    rcases (step_of_accept accepted).not_isOverlong with hcause | hshort
    · rw [Fault.kind, hcause]
      exact (and_iff_right rfl).symm
    · exact hother hshort

end Assembler

/-! ## The faults of expressions -/

/-- **The fault of an expression** cannot be reported if and only if it is that of a bracket, and the limit
on brackets has too many digits and is negative. -/
theorem isOverlong_iff_of_assemble_error {source : Option String} {maxDepth : Int} {f : Fault}
    (h : assemble source maxDepth = .error f) :
    f.cause.isOverlong = true ↔ f.kind = .nestingTooDeep ∧ isOverlong (min maxDepth 0) = true := by
  rw [assemble] at h
  cases hopen : Cursor.open? source with
  | error g =>
    rw [hopen] at h
    cases h
    obtain ⟨hshort, hkind⟩ := Cursor.not_isOverlong_of_open?_error hopen
    rw [hshort]
    exact iff_of_false Bool.false_ne_true fun h => hkind h.1
  | ok c =>
    rw [hopen] at h
    obtain ⟨a, e, c', hrequests, hends⟩ := Assembler.exists_ends (.start c.source maxDepth) .operand c
    have hfault : ((Assembler.start c.source maxDepth).resume .operand c).1 = .error f := h
    rw [hfault] at hends
    rw [hends.isOverlong_iff, hrequests.maxDepth_eq]
    rfl

/-- A limit with too many digits, far below zero. -/
def farBelowZero : Int := -(overlongFrom : Int)

/-- The caller of an assembly gets the program that it comes to. -/
@[simp] theorem parse_eq_ok_iff {source : Option String} {maxDepth : Int} {p : Program} :
    parse source maxDepth = .ok p ↔ assemble source maxDepth = .ok p := by
  rw [parse]
  cases assemble source maxDepth with
  | ok q => exact ⟨fun h => congrArg _ (Except.ok.inj h), fun h => congrArg _ (Except.ok.inj h)⟩
  | error f => exact iff_of_false nofun nofun

/-- The caller of an assembly gets the failure that its fault leads to. -/
theorem parse_eq_error {source : Option String} {maxDepth : Int} {f : Fault}
    (h : assemble source maxDepth = .error f) : parse source maxDepth = .error (.ofFault f) := by
  rw [parse, h]
  rfl

end Reckoner
