import Reckoner.Proofs.Evaluate.Spans
import Reckoner.Proofs.Fault.Marker
import Reckoner.Proofs.Json.Numbers
import Reckoner.Proofs.Symbol.Names

/-! # Reports of evaluations

What is shown of a fault is its message, the line that it points into and a marker. None of them has a line
break: a message consists of fixed words, numbers and the texts that it quotes, and an evaluation quotes
only the characters of tokens, the names of functions and the reasons of refusals.

* **`Cause.quotes`, `Cause.unbroken_message`** — the texts that a message quotes, and what it takes for the
  message to be one line.
* **`quotesUnbroken_of_assemble_error`, `quotesUnbroken_of_run_error`** — what an evaluation quotes.
* **`Cause.PointsAt.inside`** — a fault points into its text or at its end.
* **`showable_of_evaluate_error`** — both, for every fault of an evaluation.
* **`render_lines`** — what is shown of a fault. -/

namespace Reckoner

/-! ## Texts without line breaks -/

/-- A text is **unbroken** when it is one line. -/
def Unbroken (text : String) : Prop := '\n' ∉ text.toList

instance : DecidablePred Unbroken := fun text => inferInstanceAs (Decidable ('\n' ∉ text.toList))

/-- A text is on one line when both its parts are. -/
@[simp] theorem unbroken_append {x y : String} : Unbroken (x ++ y) ↔ Unbroken x ∧ Unbroken y := by
  rw [Unbroken, String.toList_append, List.mem_append, not_or, Unbroken, Unbroken]

/-- Digits are on one line. -/
theorem newline_not_mem_digits {ds : List Char} (h : Digits ds) : '\n' ∉ ds := fun hmem =>
  absurd (h '\n' hmem) (by decide)

/-- So is a natural number. -/
@[simp] theorem unbroken_toString_nat (n : Nat) : Unbroken (toString n) := by
  have hdigits : (toString n).toList = Nat.toDigits 10 n := Nat.toList_repr
  rw [Unbroken, hdigits]
  exact newline_not_mem_digits (digits_toDigits n)

/-- So is an integer. -/
@[simp] theorem unbroken_toString_int (n : Int) : Unbroken (toString n) := by
  rw [Unbroken, Json.toList_toString_int, List.mem_append, not_or]
  refine ⟨?_, newline_not_mem_digits (digits_toDigits _)⟩
  cases decide (n < 0) <;> decide

/-- A line break is a blank. -/
theorem unbroken_of_not_blank {text : String} (h : ∀ c ∈ text.toList, isBlank c = false) :
    Unbroken text := fun hmem => absurd (h '\n' hmem) (by decide)

/-- So is the name of a function. -/
@[simp] theorem Function.unbroken_name (f : Function) : Unbroken f.name := fun hmem =>
  absurd (f.isSmall_name '\n' hmem) (by decide)

/-- And so is the reason why arguments are refused. -/
@[simp] theorem Rejection.unbroken_message (r : Rejection) : Unbroken r.message := by
  match r with
  | .noElement => decide
  | .noExtremum false => decide
  | .noExtremum true => decide
  | .notExactlyOne n => exact unbroken_append.mpr ⟨by decide, unbroken_toString_nat n⟩
  | .moreThanOne n => exact unbroken_append.mpr ⟨by decide, unbroken_toString_nat n⟩

/-! ## Messages -/

/-- The texts that the message of a settings cause **quotes**. -/
def SettingsCause.quotes : SettingsCause → List String
  | .missingFile path => [path]
  | .unreadableFile path => [path]
  | .notUtf8 path => [path]
  | .notToml path reason => [path, reason]
  | .notTable name => [name]
  | .notInteger name => [name]
  | .notString name => [name]
  | _ => []

/-- The texts that the message for missing operands quotes. -/
def Demand.quotes : Demand → List String
  | .operation symbol => [symbol]
  | .call function => [function]
  | _ => []

/-- The texts that the message of a cause **quotes**. -/
def Cause.quotes : Cause → List String
  | .illegalCharacter text => [text]
  | .invalidNumber literal => [literal]
  | .unknownVariable name _ => [name]
  | .unknownFunction name => [name]
  | .emptyParens function => function.toList
  | .notAnOperand found => [found]
  | .missingOperator found => [found]
  | .arityMismatch function _ _ => [function]
  | .missingOperands demand _ _ => demand.quotes
  | .domain function reason => [function, reason]
  | .unresolvedArity function _ _ => [function]
  | .unknownInstruction shown => [shown]
  | .settings cause => cause.quotes
  | _ => []

section Messages

variable {x y z : String}

/-- Two texts on one line make another. -/
theorem Unbroken.append (hx : Unbroken x) (hy : Unbroken y) : Unbroken (x ++ y) :=
  unbroken_append.mpr ⟨hx, hy⟩

/-- A text between fixed words. -/
theorem Unbroken.between (hx : Unbroken x) (hy : Unbroken y) (hz : Unbroken z) :
    Unbroken (x ++ y ++ z) := (hx.append hy).append hz

end Messages

/-- The message of a settings cause is on one line if what it quotes is. -/
theorem SettingsCause.unbroken_message {c : SettingsCause} (h : ∀ text ∈ c.quotes, Unbroken text) :
    Unbroken c.message := by
  cases c with
  | missingFile path | unreadableFile path | notUtf8 path =>
    exact .append (by decide) (h path (List.mem_singleton_self _))
  | notToml path reason =>
    have hpath := h path (List.mem_cons_self ..)
    have hreason := h reason (List.mem_cons_of_mem path (List.mem_singleton_self _))
    exact (Unbroken.between (by decide) hpath (by decide)).append hreason
  | notTable name | notInteger name | notString name =>
    exact .between (by decide) (h name (List.mem_singleton_self _)) (by decide)
  | unsupportedVersion v => exact .between (by decide) (unbroken_toString_int v) (by decide)
  | missingVersion | limitTooSmall | precisionOutOfRange | unknownLevel => decide

/-- And so is that of missing operands. -/
theorem Demand.unbroken_message {d : Demand} (h : ∀ text ∈ d.quotes, Unbroken text)
    (needed available : Nat) : Unbroken (d.message needed available) := by
  cases d with
  | negation => exact (by decide : Unbroken "Unary '-' is missing its operand")
  | factorial => exact (by decide : Unbroken "'!' is missing its operand")
  | operation symbol =>
    have hsymbol := h symbol (List.mem_singleton_self _)
    rw [message]
    split
    · exact .between (by decide) hsymbol (by decide)
    · exact .between (by decide) hsymbol (by decide)
  | call function =>
    have hfunction := h function (List.mem_singleton_self _)
    exact ((hfunction.append (by decide)).between (unbroken_toString_nat _) (by decide)).append
      (unbroken_toString_nat _)

/-- And that of a wrong number of arguments. -/
theorem unbroken_arityMessage {function : String} (h : Unbroken function) (expected received : Int) :
    Unbroken (arityMessage function expected received) := by
  have hstart : Unbroken (if received < expected then "Lacking arguments" else "Too many arguments") := by
    split <;> decide
  exact (((((hstart.append (by decide)).append h).append (by decide)).append
    (unbroken_toString_int expected)).append (by decide)).append (unbroken_toString_int received)

/-- **A message is one line** if the texts that it quotes are. -/
theorem Cause.unbroken_message {c : Cause} (h : ∀ text ∈ c.quotes, Unbroken text) :
    Unbroken c.message := by
  cases c with
  | missingInput | emptyInput | exponentSpacing | unmatchedClose | unclosedParen | endsBeforeOperand
  | misplacedComma => decide
  -- one text between fixed words
  | illegalCharacter text | invalidNumber text | unknownFunction text | notAnOperand text
  | missingOperator text => exact .between (by decide) (h text (List.mem_singleton_self _)) (by decide)
  | unknownVariable name isFunction =>
    exact (Unbroken.between (by decide) (h name (List.mem_singleton_self _)) (by decide)).append
      (by split <;> decide)
  | unknownInstruction shown => exact .append (by decide) (h shown (List.mem_singleton_self _))
  | emptyParens function =>
    cases function with
    | none => decide
    | some name => exact (h name (List.mem_singleton_self _)).append (by decide)
  | domain function reason =>
    exact .between (h function (by simp [quotes])) (by decide) (h reason (by simp [quotes]))
  -- numbers between fixed words
  | nestingTooDeep limit => exact .between (by decide) (unbroken_toString_int limit) (by decide)
  | leftover count => exact .between (by decide) (unbroken_toString_nat count) (by decide)
  | inputTooLong length limit =>
    exact ((Unbroken.between (by decide) (unbroken_toString_nat length) (by decide)).append
      (unbroken_toString_int limit)).append (by decide)
  | unresolvedArity function given takes =>
    have hfunction := h function (List.mem_singleton_self _)
    exact (hfunction.between (by decide) (unbroken_toString_nat given)).between (by decide)
      (unbroken_toString_nat takes)
  | arityMismatch function expected received =>
    exact unbroken_arityMessage (h function (List.mem_singleton_self _)) expected received
  | missingOperands demand needed available => exact Demand.unbroken_message h needed available
  | settings cause => exact SettingsCause.unbroken_message h

/-- A fault is **told in one line** when the texts that its message quotes are unbroken. -/
def Fault.QuotesUnbroken (f : Fault) : Prop := ∀ text ∈ f.cause.quotes, Unbroken text

/-! ## The faults of an evaluation -/

/-- The characters of a token are no blanks. -/
theorem Cursor.unbroken_of_next {c c' : Cursor} {t : Token} (read : c.next = (.ok t, c')) :
    Unbroken t.literal := by
  obtain ⟨blanks, -, -, hvisible, -⟩ := exists_text_of_next read
  exact unbroken_of_not_blank hvisible

/-- What stands in the place of a token is quoted as far as it is a name. -/
theorem Cursor.quotesUnbroken_of_next_error {c c' : Cursor} {f : Fault}
    (read : c.next = (.error f, c')) : f.QuotesUnbroken := by
  obtain ⟨g, hscan, rfl⟩ := scanToken_of_next_error read
  rcases (scanToken_eq_error hscan).2 with ⟨e, b, r, -, -, -, rfl⟩ | rfl
  · exact List.forall_mem_nil _
  · refine List.forall_mem_singleton.mpr (unbroken_of_not_blank fun c hc => ?_)
    rw [String.toList_ofList] at hc
    exact isBlank_eq_false_of_isNameChar (List.all_eq_true.mp List.all_takeWhile c hc)

/-- **What a token leads to** quotes the token or the name of a function, if it is a fault. -/
theorem Assembler.Step.quotesUnbroken {a a' : Assembler} {t : Token} {e : Expectation} {f : Fault}
    (literal : Unbroken t.literal) (step : Step a t e (.fault f) a') : f.QuotesUnbroken := by
  generalize hp : Progress.fault f = progress at step
  cases step with
  | illegal | unknownVariable | unknownFunction | notAnOperand | missingOperator =>
    cases hp
    exact List.forall_mem_singleton.mpr literal
  | @arityMismatch _ _ _ g =>
    cases hp
    exact List.forall_mem_singleton.mpr g.unbroken_name
  | @emptyParens g =>
    cases hp
    cases g with
    | none => exact List.forall_mem_nil _
    | some g => exact List.forall_mem_singleton.mpr g.unbroken_name
  | tooDeep | endsBeforeOperand | misplacedComma | unmatchedClose | unclosed =>
    cases hp
    exact List.forall_mem_nil _
  | _ => cases hp

/-- **The faults of an assembly** quote nothing broken. -/
theorem quotesUnbroken_of_assemble_error {source : Option String} {maxDepth : Int} {f : Fault}
    (h : assemble source maxDepth = .error f) : f.QuotesUnbroken := by
  cases source with
  | none =>
    cases h
    exact List.forall_mem_nil _
  | some s =>
    by_cases hs : s = ""
    · subst hs
      cases h
      exact List.forall_mem_nil _
    · rw [assemble_eq_resume hs] at h
      obtain ⟨a, e, c, -, hends⟩ := Assembler.exists_ends (.start s maxDepth) .operand (.atStart s)
      rw [h] at hends
      cases hends with
      | unreadable read => exact Cursor.quotesUnbroken_of_next_error read
      | fault read accepted =>
        exact (Assembler.step_of_accept accepted).quotesUnbroken (Cursor.unbroken_of_next read)

/-- The fault of a long expression quotes nothing. -/
theorem quotesUnbroken_of_limitLength_error {source : Option String} {maxLength : Int} {f : Fault}
    (h : limitLength source maxLength = .error f) : f.QuotesUnbroken := by
  cases source with
  | none => cases h
  | some s =>
    rw [limitLength] at h
    split at h
    · cases h
      exact List.forall_mem_nil _
    · cases h

/-- **A refusal** quotes the name of a function and the reason. -/
theorem quotesUnbroken_of_run_error [Numerics] {source : Option String} {maxDepth : Int} {p : Program}
    {f : Fault}
    (h : assemble source maxDepth = .ok p) (hrun : p.run = .error (.fault f)) : f.QuotesUnbroken := by
  obtain ⟨g, -, -, -, hg, -, kind, -⟩ := (settles_of_assemble h).error_iff.2 _ hrun
  cases hg
  rw [Program.run] at hrun
  split at hrun
  · next hexecute =>
    cases hrun
    obtain ⟨g, count, span, reason, -, rfl⟩ := exists_call_of_execute hexecute kind
    exact List.forall_mem_cons.mpr ⟨g.unbroken_name, List.forall_mem_singleton.mpr reason.unbroken_message⟩
  · cases hrun
  · cases hrun
    cases kind

/-! ## Places -/

/-- What covers something is inside the text. -/
theorem Covers.inside {s : String} {offset length : Nat} {x : List Char} (h : Covers s offset length x)
    (present : 1 ≤ length) : offset ≤ s.length := by
  obtain ⟨hsize, rfl⟩ := h
  rw [List.length_take, List.length_drop, String.length_toList] at hsize
  omega

/-- A call begins inside the text. -/
theorem SpansCall.inside {s : String} {f : Function} {count offset length : Nat}
    (h : SpansCall s f count offset length) (present : 1 ≤ length) : offset ≤ s.length := by
  cases h with
  | intro met kind known opens closes covers => exact covers.inside present

/-- **Every place of a cause** begins in the text or at its end. -/
theorem Cause.PointsAt.inside {s : String} {offset length : Nat} {c : Cause}
    (h : c.PointsAt s offset length) (present : 1 ≤ length) : offset ≤ s.length := by
  cases c with
  | missingInput | emptyInput => exact Nat.le_trans (Nat.le_of_eq h.2.1) (Nat.zero_le _)
  | inputTooLong | invalidNumber => exact h.2.2.inside present
  -- one token
  | illegalCharacter | unknownVariable | unknownFunction | notAnOperand | missingOperator =>
    obtain ⟨before, t, hspans, -⟩ := h
    exact hspans.covers.inside present
  | unmatchedClose | unclosedParen | misplacedComma | nestingTooDeep => exact h.1.inside present
  | exponentSpacing =>
    obtain ⟨start, e, b, -, -, -, -, hcovers⟩ := h
    exact hcovers.inside present
  | emptyParens function =>
    obtain ⟨blanks, -, hcovers⟩ := h
    exact hcovers.inside present
  | arityMismatch function expected received =>
    obtain ⟨-, f, takes, count, -, -, -, -, hspans⟩ := h
    exact hspans.inside present
  | domain function reason =>
    obtain ⟨f, count, -, hspans⟩ := h
    exact hspans.inside present
  | endsBeforeOperand => exact Nat.le_of_eq h.1
  -- no evaluation has one of the other causes
  | _ => exact h.elim

/-- A fault that can be shown: its place is in a text, and what its message quotes is unbroken. -/
structure Fault.Showable (f : Fault) : Prop where
  exact : f.Exact
  quotes : f.QuotesUnbroken

/-- What the fault of an expression without a program quotes is unbroken. -/
theorem quotesUnbroken_of_compile_error {limits : Limits} {source : Option String} {f : Fault}
    (h : compile limits source = .error (.fault f)) : f.QuotesUnbroken := by
  rcases cases_of_compile_fault h with hlimit | hassemble
  · exact quotesUnbroken_of_limitLength_error hlimit
  · exact quotesUnbroken_of_assemble_error hassemble

/-- **The faults of an evaluation** can be shown. Without a text there is nothing to point at. -/
theorem showable_of_evaluate_error [Numerics] {limits : Limits} {source : Option String} {f : Fault}
    (bound : 0 ≤ limits.maxLength) (h : evaluate limits source = .error (.fault f)) :
    f.source = source.getD "" ∧ f.Showable := by
  rw [evaluate] at h
  cases hcompile : compile limits source with
  | ok p =>
    rw [hcompile] at h
    have hassemble := assemble_of_compile hcompile
    have hquotes := quotesUnbroken_of_run_error hassemble h
    obtain ⟨g, hg, hsource, hexact⟩ := exact_of_run_error hassemble h
    obtain ⟨s, ts, last, tree, rfl, -, -, -, -, rfl⟩ := exists_tree_of_assemble hassemble
    cases hg
    exact ⟨hsource, hexact, hquotes⟩
  | error e =>
    rw [hcompile] at h
    cases h
    obtain ⟨hsource, hexact⟩ := exact_of_compile_error bound hcompile
    exact ⟨hsource, hexact, quotesUnbroken_of_compile_error hcompile⟩

/-- Nothing is at fault in an expression without characters. -/
theorem length_of_evaluate_empty [Numerics] {limits : Limits} {source : Option String} {f : Fault}
    (bound : 0 ≤ limits.maxLength) (empty : source.getD "" = "")
    (h : evaluate limits source = .error (.fault f)) : f.length = 0 := by
  cases source with
  | none =>
    cases h
    rfl
  | some s =>
    obtain rfl : s = "" := empty
    have hlimit : limitLength (some "") limits.maxLength = .ok () := by
      rw [limitLength, if_neg (by rw [String.length_empty]; omega)]
    rw [evaluate, compile, hlimit] at h
    cases h
    rfl

/-! ## What is shown -/

/-- **What is shown of a fault.** For every text with characters, every place in it or at its end and every
width, a marked message is the message, the line around the place and a marker, with a line break between
each two. The marker stands under the place and is clipped to the line, but never empty; and neither the
line nor the marker has a line break. So every fault of an evaluation that has a width, if the limit of the
length is not negative, is shown in exactly three lines, the first of which is its message. -/
theorem render_lines [Numerics] :
    (∀ (message source : String) (offset length : Nat), source ≠ "" → offset ≤ source.length →
      1 ≤ length → ∃ before line after marker, LineAround source.toList offset before line after ∧
        Marks line (offset - before.length)
          (min length (max 1 (line.length - (offset - before.length)))) marker ∧
        '\n' ∉ line ∧ '\n' ∉ marker ∧
        marker.length ≤ max line.length (offset - before.length + 1) ∧
        markedMessage message source offset length =
          message ++ "\n" ++ String.ofList line ++ "\n" ++ String.ofList marker) ∧
    ∀ (limits : Limits) (source : Option String) (f : Fault), 0 ≤ limits.maxLength →
      evaluate limits source = .error (.fault f) → 1 ≤ f.length →
        ∃ line marker, f.diagnostic.render.toList.splitOn '\n' = [f.message.toList, line, marker] := by
  constructor
  · intro message source offset length nonempty inside present
    obtain ⟨before, line, after, marker, hline, hmarks, hmarker, heq⟩ :=
      markedMessage_lines message nonempty inside present
    refine ⟨before, line, after, marker, hline, hmarks, hline.unbroken, hmarker, ?_, heq⟩
    -- the column is in the line
    have haround := hline.around
    rw [hmarks.length]
    omega
  · intro limits source f bound h present
    obtain ⟨hsource, ⟨offset, length, hoffset, hlength, points⟩, hquotes⟩ :=
      showable_of_evaluate_error bound h
    have hpresent : 1 ≤ length := by omega
    have nonempty : f.source ≠ "" := by
      rw [hsource]
      intro empty
      have hzero := length_of_evaluate_empty bound empty h
      omega
    obtain ⟨before, line, after, marker, hline, -, hmarker, heq⟩ :=
      markedMessage_lines f.message nonempty (points.inside hpresent) hpresent
    have hrender : f.diagnostic.render =
        joinLines [f.message, String.ofList line, String.ofList marker] := by
      rw [← heq, ← hoffset, ← hlength]
      rfl
    refine ⟨line, marker, ?_⟩
    rw [hrender, splitOn_joinLines ?_ (List.cons_ne_nil _ _)]
    · simp
    · simpa using ⟨Cause.unbroken_message hquotes, hline.unbroken, hmarker⟩

/-- The character that is no token stands after a tab in the second line, and so does the marker. -/
theorem render_lines_tab :
    (∃ before line after marker, LineAround "2*\n\t$ - 1".toList 4 before line after ∧
      Marks line (4 - before.length) (min 9 (max 1 (line.length - (4 - before.length)))) marker ∧
      '\n' ∉ line ∧ '\n' ∉ marker ∧ marker.length ≤ max line.length (4 - before.length + 1) ∧
      markedMessage "too long" "2*\n\t$ - 1" 4 9 =
        "too long" ++ "\n" ++ String.ofList line ++ "\n" ++ String.ofList marker) ∧
    evaluate {} (some "2*\n\t$ - 1") =
      .error (.fault ⟨.illegalCharacter "$", "2*\n\t$ - 1", 4, 1⟩) ∧
    (Fault.diagnostic ⟨.illegalCharacter "$", "2*\n\t$ - 1", 4, 1⟩).render =
      "Invalid character: '$'\n\t$ - 1\n\t^" ∧
    ∃ line marker, (Fault.diagnostic ⟨.illegalCharacter "$", "2*\n\t$ - 1", 4, 1⟩).render.toList.splitOn
      '\n' = [(Fault.mk (.illegalCharacter "$") "2*\n\t$ - 1" 4 1).message.toList, line, marker] := by
  have hevaluate : evaluate {} (some "2*\n\t$ - 1") =
      .error (.fault ⟨.illegalCharacter "$", "2*\n\t$ - 1", 4, 1⟩) := by
    decide +kernel
  refine ⟨render_lines.1 "too long" "2*\n\t$ - 1" 4 9 (by decide) (by decide) (by decide), hevaluate,
    by decide +kernel, ?_⟩
  exact render_lines.2 {} (some "2*\n\t$ - 1") _ (by decide) hevaluate (by decide)

end Reckoner
