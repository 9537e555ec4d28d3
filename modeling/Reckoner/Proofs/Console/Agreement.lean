import Reckoner.Proofs.Console.Arguments
import Reckoner.Proofs.Console.Responses
import Reckoner.Proofs.Token.Tiling

/-! # The agreement of the commands

The three commands go different ways: `tokens` splits the whole expression without limits, `program` and
`eval` read its tokens one at a time within limits and stop where the grammar is violated. They
agree nevertheless.

* **`Command.finds_tokens_of_compile`** — an expression with a program has tokens, all of them
  legal.
* **`Command.rejects_program_of_rejects_tokens`, `Command.rejects_eval_of_rejects_program`** — what one
  command rejects is rejected by the next.
* **`Command.refused_of_rejects_eval`** — only a call of a reducer keeps a program from having a value.
* **`Response.Answers`** — a response that fits what a command finds out or rejects.
* **`commands_agree`** — so the responses to the same arguments fit each other. -/

namespace Reckoner

namespace Console

/-! ## Findings and faults of the three commands -/

namespace Command

variable {settings : Settings} {text : String} {f : Fault}

/-- **An expression with a program has tokens.** None of them is illegal, and the end token stands at the
end of the expression. -/
theorem finds_tokens_of_compile [Numerics] {p : Program} (h : compile settings.limits (some text) = .ok p) :
    ∃ ts, Command.tokens.Finds settings text (tokensFinding (ts ++ [⟨.finish, "", text.length⟩])) ∧
      ∀ t ∈ ts, t.kind ≠ .illegal := by
  obtain ⟨s, ts, last, tree, hs, htokens, -, -, htree, -⟩ :=
    exists_tree_of_assemble (assemble_of_compile h)
  obtain rfl := Option.some.inj hs
  obtain ⟨_, c', hsource, -, hyields⟩ := tokenize_eq_ok_iff.mp htokens
  obtain rfl := Option.some.inj hsource
  -- what the cursor yields ends with the end token at the end of its text
  obtain ⟨us, hus, -⟩ := hyields.exists_nonempty
  obtain ⟨rfl, hlast⟩ := List.append_inj' hus rfl
  rw [hus] at htokens
  exact ⟨ts, ⟨_, htokens, rfl⟩, htree.derives.legal⟩

/-- An expression that cannot be split into tokens has no program. -/
theorem rejects_program_of_rejects_tokens [Numerics] (h : Command.tokens.Rejects settings text f) :
    ∃ g, Command.program.Rejects settings text g := by
  cases hcompile : compile settings.limits (some text) with
  | error e =>
    obtain ⟨g, rfl, -⟩ := settings.refusesExpression_of_compile hcompile
    exact ⟨g, hcompile⟩
  | ok p =>
    obtain ⟨ts, hfinds, -⟩ := finds_tokens_of_compile hcompile
    exact absurd h (not_rejects_of_finds hfinds f)

/-- An expression without a program has no value, for the same reason. -/
theorem rejects_eval_of_rejects_program [Numerics] (h : Command.program.Rejects settings text f) :
    Command.eval.Rejects settings text f := by
  have hcompile : compile settings.limits (some text) = .error (.fault f) := h
  rw [Rejects, evaluate, hcompile]
  rfl

/-- **Only a call of a reducer keeps a program from having a value**, and the fault points at the call. -/
theorem refused_of_rejects_eval [Numerics] {p : Program} (h : Command.eval.Rejects settings text f)
    (hcompile : compile settings.limits (some text) = .ok p) :
    f.kind = .domainError ∧ ∃ reducer count span, .call (.reducer reducer) count span ∈ p.instructions ∧
      f.offset = span.offset ∧ f.length = span.length := by
  have hrun : p.run = .error (.fault f) := by
    rw [Rejects, evaluate, hcompile] at h
    exact h
  have hsettles := settles_of_assemble (assemble_of_compile hcompile)
  obtain ⟨g, before, i, after, hg, -, kind, hinstructions, hrefused, -, -, hoffset, hlength⟩ :=
    hsettles.error_iff.2 _ hrun
  cases hg
  refine ⟨kind, ?_⟩
  have hmem : i ∈ p.instructions := by
    rw [hinstructions]
    exact List.mem_append_right before (List.mem_cons_self ..)
  obtain ⟨reducer, count, span, rfl⟩ := Instruction.exists_reducer_of_refused hrefused
  exact ⟨reducer, count, span, hmem, hoffset, hlength⟩

end Command

/-! ## Responses -/

variable {w : Wording} {t : FileTree} {current : Path} {options : Options} {settings : Settings}
  {rest : List String}
  {text : String}

/-- A response **answers** a command on an expression: its exit code tells whether the expression is
rejected, and it reports the fault or shows what the command finds out. -/
structure Response.Answers [Numerics] (settings : Settings) (command : Command) (options : Options)
    (text : String) (r : Response) : Prop where
  rejected : r.code = 3 ↔ ∃ f, command.Rejects settings text f
  found : r.code = 0 ↔ ∃ finding, command.Finds settings text finding
  reports : ∀ f, command.Rejects settings text f → r.Reports command options text f
  shows_finding : ∀ finding, command.Finds settings text finding → r.Shows command options text finding

/-- A response that shows a finding answers as it should. -/
theorem Response.Shows.answers [Numerics] {command : Command} {finding : Finding} {r : Response}
    (h : r.Shows command options text finding) (hfinds : command.Finds settings text finding) :
    r.Answers settings command options text where
  rejected := by
    constructor
    · intro hthree
      simp [h.code] at hthree
    · rintro ⟨f, hf⟩
      exact absurd hf (Command.not_rejects_of_finds hfinds f)
  found := ⟨fun _ => ⟨finding, hfinds⟩, fun _ => h.code⟩
  reports := fun f hf => absurd hf (Command.not_rejects_of_finds hfinds f)
  shows_finding := by
    intro other hother
    obtain rfl := Command.eq_of_finds hfinds hother
    exact h

/-- And so does one that reports why there is none. -/
theorem Response.Reports.answers [Numerics] {command : Command} {f : Fault} {r : Response}
    (h : r.Reports command options text f) (hrejects : command.Rejects settings text f) :
    r.Answers settings command options text :=
  have hthree : r.code = 3 := h.code.trans (Command.exitCode_of_rejects hrejects)
  { rejected := ⟨fun _ => ⟨f, hrejects⟩, fun _ => hthree⟩
    found := by
      constructor
      · intro hzero
        simp [hthree] at hzero
      · rintro ⟨finding, hfinds⟩
        exact absurd hrejects (Command.not_rejects_of_finds hfinds f)
    reports := by
      intro g hg
      obtain rfl := Command.eq_of_rejects hrejects hg
      exact h
    shows_finding := fun finding hfinds =>
      absurd hrejects (Command.not_rejects_of_finds hfinds f) }

/-- **With settings every command line is answered.** -/
theorem respond_of_loads [Numerics] {command : Command}
    (accepted : Request.ofArguments (command.name :: rest) = .ok (.expression command options text))
    (loads : settingsFor w t current options = .ok settings) :
    ∃ r, respond w t current (command.name :: rest) = .ok r ∧ r.Answers settings command options text := by
  rw [respond_of_accepted accepted]
  obtain ⟨r, hr, ⟨finding, hfinds, hshows⟩ | ⟨f, hrejects, hreports⟩⟩ :=
    answerExpression_of_loads loads command text
  · exact ⟨r, hr, hshows.answers hfinds⟩
  · exact ⟨r, hr, hreports.answers hrejects⟩

/-- **The three commands agree** about every expression, with the same arguments and with settings that
can be loaded. Each of them is answered. What `tokens` rejects is rejected by `program`, and what
`program` rejects is rejected by `eval` with the same fault. What `eval` alone rejects has a call of a
reducer in its program, to which the fault points. What `program` accepts is shown by `tokens` without
an illegal token and with the end token at the end. -/
theorem commands_agree [Numerics]
    (accepted : Request.ofArguments (Command.eval.name :: rest) = .ok (.expression .eval options text))
    (loads : settingsFor w t current options = .ok settings) :
    ∃ tokens program eval, respond w t current (Command.tokens.name :: rest) = .ok tokens ∧
      respond w t current (Command.program.name :: rest) = .ok program ∧
      respond w t current (Command.eval.name :: rest) = .ok eval ∧
      (tokens.Answers settings .tokens options text ∧ program.Answers settings .program options text ∧
        eval.Answers settings .eval options text) ∧
      (tokens.code = 3 → program.code = 3) ∧
      (program.code = 3 → eval.code = 3 ∧ ∃ f, program.Reports .program options text f ∧
        eval.Reports .eval options text f) ∧
      (eval.code = 3 → program.code = 0 → ∃ f p reducer count span,
        eval.Reports .eval options text f ∧ f.kind = .domainError ∧
        program.Shows .program options text (programFinding p) ∧
        .call (.reducer reducer) count span ∈ p.instructions ∧
        f.offset = span.offset ∧ f.length = span.length) ∧
      (program.code = 0 → ∃ ts,
        tokens.Shows .tokens options text (tokensFinding (ts ++ [⟨.finish, "", text.length⟩])) ∧
        ∀ t ∈ ts, t.kind ≠ .illegal) := by
  have haccepted := Request.ofArguments_of_name accepted
  obtain ⟨tokens, htokens, tokensAnswers⟩ := respond_of_loads (haccepted .tokens) loads
  obtain ⟨program, hprogram, programAnswers⟩ := respond_of_loads (haccepted .program) loads
  obtain ⟨eval, heval, evalAnswers⟩ := respond_of_loads accepted loads
  refine ⟨tokens, program, eval, htokens, hprogram, heval,
    ⟨tokensAnswers, programAnswers, evalAnswers⟩, ?_, ?_, ?_, ?_⟩
  · intro hthree
    obtain ⟨f, hf⟩ := tokensAnswers.rejected.mp hthree
    exact programAnswers.rejected.mpr (Command.rejects_program_of_rejects_tokens hf)
  · intro hthree
    obtain ⟨f, hf⟩ := programAnswers.rejected.mp hthree
    have hrejects := Command.rejects_eval_of_rejects_program hf
    exact ⟨evalAnswers.rejected.mpr ⟨f, hrejects⟩, f, programAnswers.reports f hf,
      evalAnswers.reports f hrejects⟩
  · intro hthree hzero
    obtain ⟨f, hf⟩ := evalAnswers.rejected.mp hthree
    obtain ⟨_, p, hcompile, rfl⟩ := programAnswers.found.mp hzero
    obtain ⟨kind, reducer, count, span, hcall, hplace⟩ := Command.refused_of_rejects_eval hf hcompile
    exact ⟨f, p, reducer, count, span, evalAnswers.reports f hf, kind,
      programAnswers.shows_finding _ ⟨p, hcompile, rfl⟩, hcall, hplace⟩
  · intro hzero
    obtain ⟨_, p, hcompile, rfl⟩ := programAnswers.found.mp hzero
    obtain ⟨ts, hfinds, hlegal⟩ := Command.finds_tokens_of_compile hcompile
    exact ⟨ts, tokensAnswers.shows_finding _ hfinds, hlegal⟩

/-- An expression that has tokens and a program, but no value, with the default settings. -/
theorem commands_agree_of_empty :
    Request.ofArguments ["eval", "--json", "--", "-single(1, 2)"] =
        .ok (.expression .eval { json := true } "-single(1, 2)") ∧
      settingsFor .plain .empty Path.root { json := true } = .ok {} ∧
        ∃ tokens program eval,
          respond .plain .empty Path.root ["tokens", "--json", "--", "-single(1, 2)"] = .ok tokens ∧
          respond .plain .empty Path.root ["program", "--json", "--", "-single(1, 2)"] = .ok program ∧
          respond .plain .empty Path.root ["eval", "--json", "--", "-single(1, 2)"] = .ok eval ∧
          (tokens.code = 3 → program.code = 3) ∧ (program.code = 3 → eval.code = 3) := by
  have accepted : Request.ofArguments
      (Command.eval.name :: ["--json", "--", "-single(1, 2)"]) =
        .ok (.expression .eval { json := true } "-single(1, 2)") := rfl
  have loads : settingsFor .plain .empty Path.root { json := true } = .ok {} := rfl
  obtain ⟨tokens, program, eval, htokens, hprogram, heval, -, hfirst, hsecond, -⟩ :=
    commands_agree accepted loads
  exact ⟨accepted, loads, tokens, program, eval, htokens, hprogram, heval, hfirst,
    fun hthree => (hsecond hthree).1⟩

end Console

end Reckoner
