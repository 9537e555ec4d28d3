import Reckoner.Proofs.Console.Responses
import Reckoner.Proofs.Settings.Loading

/-! # How a command ends

A command on an expression either responds or ends without a response, and it does the latter for two
reasons only: the settings file states a version that is too large to be written, or the first settings
file that is looked for is at a path that is too long to be asked about.

* **`Fails`** — the fault with which a command fails: what is wrong with the settings, or with the
  expression.
* **`Response.Orderly`** — a response whose exit code, output and errors fit what has happened.
* **`respond_outcome`** — every accepted command line gets such a response, with these exceptions. -/

namespace Reckoner

namespace Console

/-- The fault with which a command on an expression **fails**: the settings file is at fault, or the
settings are there and the command rejects the expression. -/
def Fails [Numerics] (w : Wording) (t : FileTree) (current : Path) (options : Options)
    (command : Command) (text : String) (f : Fault) : Prop :=
  (∃ c, settingsFor w t current options = .error (.cause c) ∧ f = .unplaced (.settings c) "") ∨
    ∃ settings, settingsFor w t current options = .ok settings ∧ command.Rejects settings text f

/-- A response is **orderly** when it tells what has happened. It ends with two if the settings cannot be
loaded, with three if they can and the expression is rejected, and with zero otherwise. As JSON it is one
object with the command, the expression and whether it succeeded. A failure reports its fault, and a
success shows the finding. -/
structure Response.Orderly [Numerics] (w : Wording) (t : FileTree) (current : Path) (options : Options)
    (command : Command) (text : String) (r : Response) : Prop where
  code : r.code = 0 ∨ r.code = 2 ∨ r.code = 3
  unloaded : r.code = 2 ↔ ∃ e, settingsFor w t current options = .error e
  rejected : r.code = 3 ↔ ∃ settings f, settingsFor w t current options = .ok settings ∧
    command.Rejects settings text f
  json : options.json = true → ∃ entries,
    HoldsObject r.output (envelope command text (decide (r.code = 0)) ++ entries)
  failure : r.code ≠ 0 → ∃ f, Fails w t current options command text f ∧
    r.Reports command options text f
  success : r.code = 0 → ∃ settings finding, settingsFor w t current options = .ok settings ∧
    command.Finds settings text finding ∧ r.Shows command options text finding

variable {w : Wording} {t : FileTree} {current : Path} {options : Options} {command : Command}
  {text : String}

/-- A response that shows a finding is orderly. -/
theorem Response.Shows.orderly [Numerics] {settings : Settings} {finding : Finding} {r : Response}
    (h : r.Shows command options text finding) (hfinds : command.Finds settings text finding)
    (loads : settingsFor w t current options = .ok settings) :
    r.Orderly w t current options command text where
  code := .inl h.code
  unloaded := by
    constructor
    · intro htwo
      simp [h.code] at htwo
    · rintro ⟨e, he⟩
      simp [loads] at he
  rejected := by
    constructor
    · intro hthree
      simp [h.code] at hthree
    · rintro ⟨other, f, hother, hrejects⟩
      obtain rfl := Except.ok.inj (loads.symm.trans hother)
      exact absurd hrejects (Command.not_rejects_of_finds hfinds f)
  json := by
    intro hjson
    rw [h.code]
    exact ⟨_, h.json hjson⟩
  failure := fun hfailure => absurd h.code hfailure
  success := fun _ => ⟨settings, finding, loads, hfinds, h⟩

/-- A report as data is one object. -/
theorem Response.Reports.holdsObject {f : Fault} {r : Response} (h : r.Reports command options text f)
    (hcode : r.code ≠ 0) (hjson : options.json = true) :
    ∃ entries, HoldsObject r.output (envelope command text (decide (r.code = 0)) ++ entries) := by
  rw [decide_eq_false hcode]
  exact ⟨_, h.json hjson⟩

/-- A response that reports what is wrong with the settings is orderly. -/
theorem Response.Reports.orderly_of_cause [Numerics] {c : SettingsCause} {r : Response}
    (h : r.Reports command options text (.unplaced (.settings c) ""))
    (hsettings : settingsFor w t current options = .error (.cause c)) :
    r.Orderly w t current options command text :=
  have htwo : r.code = 2 := h.code
  { code := .inr (.inl htwo)
    unloaded := ⟨fun _ => ⟨_, hsettings⟩, fun _ => htwo⟩
    rejected := by
      constructor
      · intro hthree
        simp [htwo] at hthree
      · rintro ⟨settings, f, hloads, -⟩
        simp [hsettings] at hloads
    json := h.holdsObject (by simp [htwo])
    failure := fun _ => ⟨_, .inl ⟨c, hsettings, rfl⟩, h⟩
    success := by simp [htwo] }

/-- A response that reports why the expression is rejected is orderly. -/
theorem Response.Reports.orderly_of_rejects [Numerics] {settings : Settings} {f : Fault} {r : Response}
    (h : r.Reports command options text f) (hrejects : command.Rejects settings text f)
    (loads : settingsFor w t current options = .ok settings) :
    r.Orderly w t current options command text :=
  have hthree : r.code = 3 := h.code.trans (Command.exitCode_of_rejects hrejects)
  { code := .inr (.inr hthree)
    unloaded := by
      constructor
      · intro htwo
        simp [hthree] at htwo
      · rintro ⟨e, he⟩
        simp [loads] at he
    rejected := ⟨fun _ => ⟨settings, f, loads, hrejects⟩, fun _ => hthree⟩
    json := h.holdsObject (by simp [hthree])
    failure := fun _ => ⟨f, .inr ⟨settings, loads, hrejects⟩, h⟩
    success := by simp [hthree] }

/-- **How a command on an expression ends**, if the paths of its options can be asked about and nothing
in the settings file is too large to be read. -/
theorem answerExpression_cases [Numerics] (askable : Askable current options)
    (readable : Readable t current options) (command : Command) (text : String) :
    (∃ r, answerExpression w t current command options text = .ok r ∧
        r.Orderly w t current options command text) ∧ ¬ StatesOverlongVersion t current options ∧
          (∀ p, ¬ AsksTooLong t current options p) ∨
      answerExpression w t current command options text = .error (.excess .digitsWritten) ∧
        StatesOverlongVersion t current options ∨
      ∃ p, answerExpression w t current command options text = .error (.path (.tooLong p.route)) ∧
        AsksTooLong t current options p := by
  rcases settingsFor_cases (w := w) askable readable with
    ⟨⟨settings, loads⟩ | ⟨c, hsettings⟩, hshort, hasked⟩ | ⟨hexcess, hlong⟩ | ⟨p, hpath, hlong⟩
  · refine .inl ⟨?_, hshort, hasked⟩
    obtain ⟨r, hr, ⟨finding, hfinds, hshows⟩ | ⟨f, hrejects, hreports⟩⟩ :=
      answerExpression_of_loads loads command text
    · exact ⟨r, hr, hshows.orderly hfinds loads⟩
    · exact ⟨r, hr, hreports.orderly_of_rejects hrejects loads⟩
  · refine .inl ⟨?_, hshort, hasked⟩
    obtain ⟨r, hr, hreports⟩ := answerExpression_of_cause hsettings command text
    exact ⟨r, hr, hreports.orderly_of_cause hsettings⟩
  · refine .inr (.inl ⟨?_, hlong⟩)
    rw [answerExpression, hexcess]
  · refine .inr (.inr ⟨p, ?_, hlong⟩)
    rw [answerExpression, hpath]

/-- **A command line with an expression ends with an orderly response**, unless the settings file states a
version that is too large to be written, or the first settings file that is looked for is at a path that
is too long to be asked about; then there is no response at all. -/
theorem respond_outcome [Numerics] {arguments : List String}
    (accepted : Request.ofArguments arguments = .ok (.expression command options text))
    (askable : Askable current options) (readable : Readable t current options) :
    (∃ r, respond w t current arguments = .ok r ∧ r.Orderly w t current options command text) ∧
        ¬ StatesOverlongVersion t current options ∧ (∀ p, ¬ AsksTooLong t current options p) ∨
      respond w t current arguments = .error (.excess .digitsWritten) ∧
        StatesOverlongVersion t current options ∨
      ∃ p, respond w t current arguments = .error (.path (.tooLong p.route)) ∧
        AsksTooLong t current options p := by
  rw [respond_of_accepted accepted]
  exact answerExpression_cases askable readable command text

/-- From the outermost folder, without a settings file, there is a response. -/
theorem exists_response_of_empty :
    Request.ofArguments ["program", "--json", "--", "-1 +"] =
        .ok (.expression .program { json := true } "-1 +") ∧
      Askable Path.root { json := true } ∧ Readable .empty Path.root { json := true } ∧
        ∃ r, respond .plain .empty Path.root ["program", "--json", "--", "-1 +"] = .ok r ∧
          r.Orderly .plain .empty Path.root { json := true } .program "-1 +" := by
  have accepted : Request.ofArguments ["program", "--json", "--", "-1 +"] =
      .ok (.expression .program { json := true } "-1 +") := rfl
  have askable : Askable Path.root { json := true } := askable_root rfl rfl
  have htext : settingsText? .empty Path.root { json := true } = none := rfl
  have readable : Readable .empty Path.root { json := true } := readable_of_none htext
  refine ⟨accepted, askable, readable, ?_⟩
  rcases respond_outcome (w := .plain) accepted askable readable with
    ⟨hr, -⟩ | ⟨-, hlong⟩ | ⟨p, -, hlong⟩
  · exact hr
  · exact absurd hlong (not_statesOverlongVersion_of_none htext)
  · exact absurd hlong (not_asksTooLong_root .empty rfl rfl p)

/-- A version that is too large to be written leaves a command without a response. -/
theorem respond_overlongTree :
    Request.ofArguments ["tokens", "1"] = .ok (.expression .tokens {} "1") ∧
      Askable Path.root {} ∧ Readable overlongTree Path.root {} ∧
        ∀ r, respond .plain overlongTree Path.root ["tokens", "1"] ≠ .ok r := by
  have accepted : Request.ofArguments ["tokens", "1"] = .ok (.expression .tokens {} "1") := rfl
  have askable : Askable Path.root {} := askable_root rfl rfl
  obtain ⟨readable, hlong⟩ : Readable overlongTree Path.root {} ∧
      StatesOverlongVersion overlongTree Path.root {} := overlongTree_states rfl rfl
  refine ⟨accepted, askable, readable, fun r hr => ?_⟩
  rw [respond_of_accepted accepted] at hr
  rcases answerExpression_cases (w := .plain) askable readable .tokens "1" with
    ⟨-, hshort, -⟩ | ⟨hnone, -⟩ | ⟨p, hnone, -⟩
  · exact hshort hlong
  · cases hnone.symm.trans hr
  · cases hnone.symm.trans hr

end Console

end Reckoner
