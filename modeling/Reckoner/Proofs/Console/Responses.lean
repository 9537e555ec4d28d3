import Reckoner.Console.Response
import Reckoner.Proofs.Evaluate.Containment
import Reckoner.Proofs.Json.RoundTrip

/-! # What a response says

Once the settings are known, every command has a response: it shows what the command finds out about
the expression, or it reports the fault of the expression. As JSON it is one object that is read back
as it was written.

* **`Command.Finds`, `Command.Rejects`** — what a command finds out about an expression, and the fault
  for which it rejects one.
* **`inspect_cases`** — every expression is one or the other.
* **`HoldsObject`, `envelope`, `faultEntries`** — an output that is one JSON object, and the entries that
  the objects of all commands have.
* **`Response.Shows`, `Response.Reports`** — the response for a finding and the one for a fault.
* **`answerExpression_of_loads`, `answerExpression_of_cause`** — the response with settings, and the one
  with settings that cannot be used. -/

namespace Reckoner

/-! ## Limits of settings -/

namespace Settings

variable (settings : Settings) {source : Option String} {e : Failure}

/-- No evaluation runs into a limit of settings that cannot be written: these limits are positive. -/
theorem not_unwritable : ¬ settings.limits.Unwritable source := by
  obtain ⟨hdepth, hlength⟩ := settings.limits_pos
  intro h
  cases h with
  | length s below overlong => omega
  | depth fits below overlong deep kind => omega

/-- With settings, an expression without a program has a fault. -/
theorem refusesExpression_of_compile (h : compile settings.limits source = .error e) :
    ∃ f, e = .fault f ∧ f.category.RefusesExpression := by
  rcases refusesExpression_of_compile_error h with ⟨hfault, -⟩ | ⟨-, hlimits⟩
  · exact hfault
  · exact absurd hlimits settings.not_unwritable

/-- With settings, an evaluation fails with a fault. -/
theorem refusesEvaluation_of_evaluate [Numerics] (h : evaluate settings.limits source = .error e) :
    ∃ f, e = .fault f ∧ f.RefusesEvaluation := by
  rcases refusesEvaluation_of_evaluate_error h with ⟨hfault, -⟩ | ⟨-, hlimits⟩
  · exact hfault
  · exact absurd hlimits settings.not_unwritable

end Settings

namespace Console

/-! ## Findings and faults -/

/-- What a command **finds out** about an expression. -/
def Command.Finds [Numerics] (settings : Settings) (text : String) (finding : Finding) : Command → Prop
  | .tokens => ∃ tokens, tokenize (some text) = .ok tokens ∧ finding = tokensFinding tokens
  | .program => ∃ p, compile settings.limits (some text) = .ok p ∧ finding = programFinding p
  | .eval => ∃ value, evaluate settings.limits (some text) = .ok value ∧
      finding = valueFinding settings.precision value

/-- The fault for which a command **rejects** an expression. -/
def Command.Rejects [Numerics] (settings : Settings) (text : String) (f : Fault) : Command → Prop
  | .tokens => tokenize (some text) = .error f
  | .program => compile settings.limits (some text) = .error (.fault f)
  | .eval => evaluate settings.limits (some text) = .error (.fault f)

/-- **A rejected expression** ends with the exit code three. -/
theorem Command.exitCode_of_rejects [Numerics] {settings : Settings} {text : String} {f : Fault}
    {command : Command} (h : command.Rejects settings text f) : f.category.exitCode = 3 := by
  have hrefuses : f.category.RefusesExpression → f.category.exitCode = 3 := by
    rintro (h | h | h) <;> rw [h] <;> rfl
  cases command with
  | tokens => exact hrefuses (.inl (category_of_tokenize_error h))
  | program =>
    obtain ⟨g, hg, hrefusal⟩ := settings.refusesExpression_of_compile h
    cases hg
    exact hrefuses hrefusal
  | eval =>
    obtain ⟨g, hg, hrefusal⟩ := settings.refusesEvaluation_of_evaluate h
    cases hg
    rcases hrefusal with hexpression | ⟨hevaluation, -⟩
    · exact hrefuses hexpression
    · rw [hevaluation]
      rfl

/-- A command does not find something and refuse it. -/
theorem Command.not_rejects_of_finds [Numerics] {settings : Settings} {text : String} {finding : Finding}
    {command : Command} (h : command.Finds settings text finding) (f : Fault) :
    ¬ command.Rejects settings text f := by
  intro hrejects
  cases command with
  | tokens =>
    obtain ⟨tokens, htokens, -⟩ := h
    cases htokens.symm.trans hrejects
  | program =>
    obtain ⟨p, hp, -⟩ := h
    cases hp.symm.trans hrejects
  | eval =>
    obtain ⟨value, hvalue, -⟩ := h
    cases hvalue.symm.trans hrejects

/-- A command finds out one thing about an expression. -/
theorem Command.eq_of_finds [Numerics] {settings : Settings} {text : String} {finding other : Finding}
    {command : Command} (h : command.Finds settings text finding)
    (h' : command.Finds settings text other) : finding = other := by
  cases command with
  | tokens =>
    obtain ⟨_, htokens, rfl⟩ := h
    obtain ⟨_, hother, rfl⟩ := h'
    rw [Except.ok.inj (htokens.symm.trans hother)]
  | program =>
    obtain ⟨_, hp, rfl⟩ := h
    obtain ⟨_, hother, rfl⟩ := h'
    rw [Except.ok.inj (hp.symm.trans hother)]
  | eval =>
    obtain ⟨_, hvalue, rfl⟩ := h
    obtain ⟨_, hother, rfl⟩ := h'
    rw [Except.ok.inj (hvalue.symm.trans hother)]

/-- A command rejects an expression for one fault. -/
theorem Command.eq_of_rejects [Numerics] {settings : Settings} {text : String} {f g : Fault}
    {command : Command}
    (h : command.Rejects settings text f) (h' : command.Rejects settings text g) : f = g := by
  cases command with
  | tokens => exact Except.error.inj (h.symm.trans h')
  | program => exact Failure.fault.inj (Except.error.inj (h.symm.trans h'))
  | eval => exact Failure.fault.inj (Except.error.inj (h.symm.trans h'))

/-- **Every expression** is one that a command finds something out about, or one that it rejects. -/
theorem inspect_cases [Numerics] (settings : Settings) (text : String) (command : Command) :
    (∃ log finding, inspect settings text command = ⟨log, .ok finding⟩ ∧
      command.Finds settings text finding) ∨
    ∃ log f, inspect settings text command = ⟨log, .error (.fault f)⟩ ∧
      command.Rejects settings text f := by
  cases command with
  | tokens =>
    rw [inspect]
    cases htokens : tokenize (some text) with
    | ok tokens => exact .inl ⟨_, _, rfl, tokens, htokens, rfl⟩
    | error f =>
      refine .inr ⟨[], f, ?_, htokens⟩
      dsimp only
      rw [Failure.ofFault_of_short (not_isOverlong_of_tokenize_error htokens)]
  | program =>
    rw [inspect]
    cases hcompile : compile settings.limits (some text) with
    | ok p => exact .inl ⟨_, _, rfl, p, hcompile, rfl⟩
    | error e =>
      obtain ⟨f, rfl, -⟩ := settings.refusesExpression_of_compile hcompile
      exact .inr ⟨_, f, rfl, hcompile⟩
  | eval =>
    rw [inspect]
    cases hcompile : compile settings.limits (some text) with
    | error e =>
      obtain ⟨f, rfl, -⟩ := settings.refusesExpression_of_compile hcompile
      refine .inr ⟨_, f, rfl, ?_⟩
      rw [Command.Rejects, evaluate, hcompile]
      rfl
    | ok p =>
      have hevaluate : evaluate settings.limits (some text) = p.run := by
        rw [evaluate, hcompile]
        rfl
      dsimp only
      cases hrun : p.run with
      | ok value => exact .inl ⟨_, _, rfl, value, hevaluate.trans hrun, rfl⟩
      | error e =>
        obtain ⟨f, rfl, -⟩ := settings.refusesEvaluation_of_evaluate (hevaluate.trans hrun)
        exact .inr ⟨_, f, rfl, hevaluate.trans hrun⟩

/-! ## Objects -/

/-- An output **holds an object**: it is the JSON for a table, from its first brace to its last one, and
a line break. -/
def HoldsObject (output : String) (entries : List (String × Document)) : Prop :=
  ∃ text inside, output = line text ∧ text.toList = '\x7b' :: (inside ++ ['\x7d']) ∧
    Json.read? text = some (.table entries)

/-- A table that reads back is one object, when it is written on lines of its own. -/
theorem holdsObject_pretty {entries : List (String × Document)}
    (h : (Document.table entries).Faithful) :
    HoldsObject (line (Json.pretty (.table entries))) entries := by
  have hbraces : ∃ inside, Json.prettyAt 0 (.table entries) = '\x7b' :: (inside ++ ['\x7d']) := by
    cases entries with
    | nil => exact ⟨[], rfl⟩
    | cons e es => exact ⟨_, rfl⟩
  obtain ⟨inside, hinside⟩ := hbraces
  exact ⟨_, inside, rfl, (String.toList_ofList ..).trans hinside, Json.read?_pretty h⟩

/-- The entries that come first in every object: the command, whether it succeeded, and the
expression. -/
def envelope (command : Command) (text : String) (ok : Bool) : List (String × Document) :=
  [("command", .text command.name), ("ok", .boolean ok), ("expression", .text text)]

/-- The entries for a fault. -/
def faultEntries (f : Fault) : List (String × Document) :=
  [("error", .table ([("type", .text f.category.typeName), ("kind", .text f.kind.code),
      ("message", .text f.message), ("offset", .integer f.offset), ("length", .integer f.length)] ++
      (f.cause.signature.map Signature.entries).getD [])),
    ("hint", .ofText? f.diagnostic.hint)]

/-- A fault as data has the entries of every answer first. -/
theorem faultDocument_eq (command : Command) (text : String) (f : Fault) :
    faultDocument command text f.diagnostic = .table (envelope command text false ++ faultEntries f) :=
  rfl

/-- Data of one kind read back if each of them does. -/
theorem allFaithful_map {α : Type} {g : α → Document} (h : ∀ a, (g a).Faithful) (l : List α) :
    Document.AllFaithful (l.map g) := by
  induction l with
  | nil => trivial
  | cons a l ih => exact ⟨h a, ih⟩

/-- A fault as data reads back. -/
theorem faithful_fault (command : Command) (text : String) (f : Fault) :
    (Document.table (envelope command text false ++ faultEntries f)).Faithful := by
  have hhint : (Document.ofText? f.diagnostic.hint).Faithful := by
    cases f.diagnostic.hint <;> trivial
  refine ⟨by simp [envelope, faultEntries], trivial, trivial, trivial, ?_, hhint, trivial⟩
  -- the numbers of arguments come last, for the faults that have some
  cases f.cause.signature with
  | none => exact ⟨by simp, trivial, trivial, trivial, trivial, trivial, trivial⟩
  | some s =>
    exact ⟨by simp [Signature.entries], trivial, trivial, trivial, trivial, trivial, trivial, trivial,
      trivial, trivial⟩

/-- A number as data reads back. -/
theorem faithful_valueDocument (x : Binary64) : (valueDocument x).Faithful := by
  rw [valueDocument]
  split
  · next hfinite =>
    rintro rfl
    cases hfinite
  · trivial

/-- The objects of all findings can be read back. -/
theorem faithful_finding [Numerics] {settings : Settings} {text : String} {finding : Finding}
    {command : Command} (h : command.Finds settings text finding) :
    (Document.table (envelope command text true ++ finding.entries)).Faithful := by
  cases command with
  | tokens =>
    obtain ⟨tokens, -, rfl⟩ := h
    have htoken : ∀ t, (tokenDocument t).Faithful := fun t =>
      ⟨by simp, trivial, trivial, trivial, trivial⟩
    exact ⟨by simp [envelope, tokensFinding], trivial, trivial, trivial,
      allFaithful_map htoken tokens, trivial⟩
  | program =>
    obtain ⟨p, -, rfl⟩ := h
    have hinstruction : ∀ i : Instruction, (Document.text i.text).Faithful := fun i => trivial
    exact ⟨by simp [envelope, programFinding], trivial, trivial, trivial,
      allFaithful_map hinstruction p.instructions, trivial⟩
  | eval =>
    obtain ⟨value, -, rfl⟩ := h
    exact ⟨by simp [envelope, valueFinding], trivial, trivial, trivial,
      faithful_valueDocument value, trivial, trivial⟩

/-! ## Responses -/

namespace Response

/-- A response **shows a finding** about an expression: it succeeds, with an object that holds the finding
or with the text of the finding. -/
structure Shows (command : Command) (options : Options) (text : String) (finding : Finding)
    (r : Response) : Prop where
  code : r.code = 0
  json : options.json = true → HoldsObject r.output (envelope command text true ++ finding.entries)
  plain : options.json = false → r.output = finding.text

/-- A response **reports a fault** of an expression or of the settings: it fails, with an object that
holds the fault, or without any output and with the report of the fault at the end of what is logged. -/
structure Reports (command : Command) (options : Options) (text : String) (f : Fault)
    (r : Response) : Prop where
  code : r.code = f.category.exitCode
  json : options.json = true → HoldsObject r.output (envelope command text false ++ faultEntries f)
  plain : options.json = false → r.output = "" ∧ ∃ log, r.errors = log ++ line f.report

end Response

/-- **The response for a fault reports it**. -/
theorem reports_faultResponse (command : Command) (options : Options) (text log : String) (f : Fault) :
    (faultResponse command options text log f).Reports command options text f := by
  rw [faultResponse]
  by_cases hjson : options.json = true
  · rw [if_pos hjson]
    refine ⟨rfl, fun _ => ?_, fun hplain => ?_⟩
    · rw [faultDocument_eq]
      exact holdsObject_pretty (faithful_fault command text f)
    · rw [hjson] at hplain
      cases hplain
  · rw [if_neg hjson]
    exact ⟨rfl, fun h => absurd h hjson, fun _ => ⟨rfl, log, rfl⟩⟩

/-- **The response for a finding shows it**. -/
theorem shows_findingText [Numerics] {settings : Settings} {command : Command} {text : String}
    {finding : Finding} (h : command.Finds settings text finding) (options : Options) (log : String) :
    Response.Shows command options text finding ⟨0, findingText command options text finding, log⟩ := by
  rw [findingText]
  by_cases hjson : options.json = true
  · rw [if_pos hjson]
    refine ⟨rfl, fun _ => holdsObject_pretty (faithful_finding h), fun hplain => ?_⟩
    rw [hjson] at hplain
    cases hplain
  · rw [if_neg hjson]
    exact ⟨rfl, fun h => absurd h hjson, fun _ => rfl⟩

variable {w : Wording} {t : FileTree} {current : Path} {options : Options}

/-- **With settings every command has a response**, which shows what it finds out or reports the fault
for which it rejects the expression. -/
theorem answerExpression_of_loads [Numerics] {settings : Settings}
    (loads : settingsFor w t current options = .ok settings) (command : Command) (text : String) :
    ∃ r, answerExpression w t current command options text = .ok r ∧
      ((∃ finding, command.Finds settings text finding ∧ r.Shows command options text finding) ∨
        ∃ f, command.Rejects settings text f ∧ r.Reports command options text f) := by
  rw [answerExpression, loads]
  dsimp only
  rcases inspect_cases settings text command with ⟨log, finding, hinspect, hfinds⟩ |
    ⟨log, f, hinspect, hrejects⟩
  · rw [hinspect]
    exact ⟨_, rfl, .inl ⟨finding, hfinds, shows_findingText hfinds options _⟩⟩
  · rw [hinspect]
    exact ⟨_, rfl, .inr ⟨f, hrejects, reports_faultResponse command options text _ f⟩⟩

/-- **With settings that cannot be used** every command reports what is wrong with them. -/
theorem answerExpression_of_cause [Numerics] {c : SettingsCause}
    (h : settingsFor w t current options = .error (.cause c)) (command : Command) (text : String) :
    ∃ r, answerExpression w t current command options text = .ok r ∧
      r.Reports command options text (.unplaced (.settings c) "") := by
  rw [answerExpression, h]
  exact ⟨_, rfl, reports_faultResponse command options text "" _⟩

/-- An accepted command line is answered as the request that it makes. -/
theorem respond_of_accepted [Numerics] {arguments : List String} {command : Command} {text : String}
    (accepted : Request.ofArguments arguments = .ok (.expression command options text)) :
    respond w t current arguments = answerExpression w t current command options text := by
  rw [respond, accepted]
  rfl

end Console

end Reckoner
