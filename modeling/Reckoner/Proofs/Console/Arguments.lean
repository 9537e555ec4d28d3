import Reckoner.Console.Tool

/-! # Command lines that name a command

Whether a command line is accepted, and with which options and which expression, does not depend on the
command that it names; and the command line of a tool is accepted whatever the expression looks like.

* **`Request.ofArguments_name`** — what a command line asks for that begins with the name of a command.
* **`Request.ofArguments_of_name`** — a command line that one command accepts is accepted by all.
* **`Request.ofArguments_toolArguments`** — the command line of a tool asks for its expression. -/

namespace Reckoner

namespace Console

/-! ## The command -/

/-- Every argument is one word. -/
theorem length_classifyAll {names : OptionNames} {arguments : List String} {words : List Word}
    (h : classifyAll names arguments = .ok words) : words.length = arguments.length := by
  induction arguments generalizing words with
  | nil =>
    cases h
    rfl
  | cons argument rest ih =>
    rw [classifyAll] at h
    split at h
    · cases h
      rw [List.length_cons, List.length_cons, List.length_map]
    · cases hword : classify names argument with
      | error stop =>
        rw [hword] at h
        cases h
      | ok word =>
        cases hwords : classifyAll names rest with
        | error stop =>
          rw [hword, hwords] at h
          cases h
        | ok others =>
          rw [hword, hwords] at h
          cases h
          rw [List.length_cons, List.length_cons, ih hwords]

/-- An argument that begins with no hyphen is an operand. -/
@[simp] theorem classify_operand (names : OptionNames) {argument : String}
    (h : argument.toList.head? ≠ some '-') : classify names argument = .ok (.operand argument) := by
  unfold classify
  split
  · next rest hrest =>
    rw [hrest] at h
    exact absurd rfl h
  · next c rest _ hrest =>
    rw [hrest] at h
    exact absurd rfl h
  · rfl

/-- Arguments up to the separator are classified one by one. -/
@[simp] theorem classifyAll_cons {names : OptionNames} {argument : String} {word : Word}
    (hword : classify names argument = .ok word) (hnot : argument ≠ "--") (rest : List String) :
    classifyAll names (argument :: rest) =
      (classifyAll names rest).map fun words => word :: words := by
  rw [classifyAll, if_neg hnot, hword]
  rfl

/-- A command is found by its name. -/
@[simp] theorem ofName?_name (command : Command) : Command.ofName? command.name = some command := by
  cases command <;> decide

/-- The **options and the expression** that the arguments after the name of a command state. -/
def statedExpression (arguments : List String) : Except Stop (Options × String) := do
  let words ← classifyAll expressionOptions arguments
  let reading ← readWords expressionOptions true {} words
  match reading.operand with
  | none => .error .misuse
  | some text =>
    refuseSurplus reading.surplus
    return (reading.options, text)

/-- The request of a command that is named in full. -/
@[simp] theorem expressionRequest_eq (command : Command) (name : String) (arguments : List String) :
    expressionRequest command ⟨name, arguments, false⟩ =
      (statedExpression arguments).map fun (options, text) => .expression command options text := by
  unfold expressionRequest statedExpression
  cases classifyAll expressionOptions arguments with
  | error stop => rfl
  | ok words =>
    dsimp only [bind, Except.bind]
    cases readWords expressionOptions true {} words with
    | error stop => rfl
    | ok reading =>
      obtain ⟨options, operand, surplus⟩ := reading
      cases operand with
      | none => rfl
      | some text => cases surplus <;> rfl

/-- **A command line that begins with the name of a command** asks the command for what the arguments
after the name state. They must not be malformed for the options before a command either. -/
@[simp] theorem Request.ofArguments_name (command : Command) (rest : List String) :
    Request.ofArguments (command.name :: rest) =
      (classifyAll topOptions rest).bind fun _ =>
        (statedExpression rest).map fun (options, text) => .expression command options text := by
  have hname : command.name.toList.head? ≠ some '-' := by cases command <;> decide
  have hnot : command.name ≠ "--" := by cases command <;> decide
  have hknown : ["eval", "tokens", "program", "mcp"].contains command.name = true := by
    cases command <;> decide
  have hclassify := classifyAll_cons (classify_operand topOptions hname) hnot rest
  rw [Request.ofArguments, Choice.ofArguments, hclassify]
  cases hwords : classifyAll topOptions rest with
  | error stop => rfl
  | ok words =>
    have hlength : rest.length ≤ words.length := Nat.le_of_eq (length_classifyAll hwords).symm
    have hchoice : chooseCommand topOptions ["eval", "tokens", "program", "mcp"] false
        ((command.name :: rest).zip (.operand command.name :: words)) =
          .ok ⟨command.name, rest, false⟩ := by
      rw [List.zip_cons_cons, chooseCommand, if_pos hknown, List.map_fst_zip hlength]
    show (chooseCommand topOptions _ false _ >>= _) = _
    rw [hchoice]
    dsimp only [bind, Except.bind]
    rw [ofName?_name]
    exact expressionRequest_eq command command.name rest

/-- **A command line that one command accepts is accepted by all**, with the same options and the same
expression. -/
theorem Request.ofArguments_of_name {c : Command} {rest : List String} {options : Options}
    {text : String}
    (h : Request.ofArguments (c.name :: rest) = .ok (.expression c options text))
    (command : Command) :
    Request.ofArguments (command.name :: rest) = .ok (.expression command options text) := by
  rw [Request.ofArguments_name] at h ⊢
  cases hwords : classifyAll topOptions rest with
  | error stop =>
    rw [hwords] at h
    cases h
  | ok words =>
    rw [hwords] at h
    cases hstated : statedExpression rest with
    | error stop =>
      rw [hstated] at h
      cases h
    | ok stated =>
      rw [hstated] at h
      cases h
      rfl

/-! ## Tools -/

/-- After a separator everything is an operand. -/
@[simp] theorem classifyAll_separator (names : OptionNames) (rest : List String) :
    classifyAll names ("--" :: rest) = .ok (.separator :: rest.map .operand) :=
  rfl

/-- **The command line of a tool** asks the command for JSON about the expression, whatever the
expression looks like. -/
theorem Request.ofArguments_toolArguments (command : Command) (expression : String)
    {root : Option String} (h : ∀ r ∈ root, r.toList.head? ≠ some '-') :
    Request.ofArguments (toolArguments command expression root) =
      .ok (.expression command { root := root.getD "", json := true } expression) := by
  have hempty : Request.ofArguments (command.name :: ["--json", "--", expression]) =
      .ok (.expression command { json := true } expression) := by
    rw [Request.ofArguments_name]
    rfl
  cases root with
  | none => exact hempty
  | some r =>
    by_cases hr : r = ""
    · subst hr
      exact hempty
    · have hoperand := h r rfl
      have hnot : r ≠ "--" := by
        rintro rfl
        exact hoperand rfl
      have hline : toolArguments command expression (some r) =
          command.name :: ["--json", "--root", r, "--", expression] := by
        unfold toolArguments
        dsimp only
        rw [if_neg hr]
        rfl
      have hclassified : ∀ names, classifyAll names [r, "--", expression] =
          .ok [.operand r, .separator, .operand expression] := fun names => by
        rw [classifyAll_cons (classify_operand names hoperand) hnot, classifyAll_separator]
        rfl
      have htop : classifyAll topOptions ["--json", "--root", r, "--", expression] =
          .ok [.unknown, .unknown, .operand r, .separator, .operand expression] := by
        have hjson : classify topOptions "--json" = .ok .unknown := rfl
        have hroot : classify topOptions "--root" = .ok .unknown := rfl
        rw [classifyAll_cons hjson (by decide), classifyAll_cons hroot (by decide), hclassified]
        rfl
      have hwords : classifyAll expressionOptions ["--json", "--root", r, "--", expression] =
          .ok [.long .json none, .long .root none, .operand r, .separator, .operand expression] := by
        have hjson : classify expressionOptions "--json" = .ok (.long .json none) := rfl
        have hroot : classify expressionOptions "--root" = .ok (.long .root none) := rfl
        rw [classifyAll_cons hjson (by decide), classifyAll_cons hroot (by decide), hclassified]
        rfl
      have hread : readWords expressionOptions true {}
          [.long .json none, .long .root none, .operand r, .separator, .operand expression] =
            .ok { options := { root := r, json := true }, operand := some expression } := by
        have hvalue : ({ json := true } : Options).setValue .root r = { root := r, json := true } := by
          rw [Options.setValue, if_neg hnot]
        show readWords expressionOptions true
          { options := ({ json := true } : Options).setValue .root r }
          [.separator, .operand expression] = _
        rw [hvalue]
        rfl
      have hstated : statedExpression ["--json", "--root", r, "--", expression] =
          .ok ({ root := r, json := true }, expression) := by
        rw [statedExpression, hwords]
        dsimp only [bind, Except.bind]
        rw [hread]
        rfl
      rw [hline, Request.ofArguments_name, htop, hstated]
      rfl

end Console

end Reckoner
