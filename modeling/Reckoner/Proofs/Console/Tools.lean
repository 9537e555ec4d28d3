import Reckoner.Proofs.Console.Arguments
import Reckoner.Proofs.Console.Outcome

/-! # What tools answer

A tool answers with JSON about the very expression that it is given, whatever that looks like, and every
command line is answered with JSON. The only exceptions are those of the commands: a version in the
settings file that is too large to be written, and a first settings file at a path that is too long to be
asked about.

* **`isSome_read?_enclose`, `read?_enclose`** — what encloses an output is JSON; an object is passed on.
* **`toolOptions`, `useTool_eq`** — a tool is a command with options for JSON.
* **`Presents`** — how a value stands in JSON.
* **`useTool_cases`, `useTool_eval`, `respondJson_cases`** — the answers of all tools, those of the tool
  for values, and those to command lines.
* **`tools_outcome`** — all of these together. -/

namespace Reckoner

namespace Console

/-! ## Enclosed output -/

/-- The table that says that a command failed reads back. -/
@[simp] theorem read?_failureJson (name reason : String) : Json.read? (failureJson name reason) =
    some (.table [("command", .text name), ("ok", .boolean false), ("error", .text reason)]) :=
  Json.read?_compact ⟨by simp, trivial, trivial, trivial, trivial⟩

/-- **Whatever is written**, what encloses it is JSON. -/
@[simp] theorem isSome_read?_enclose (name output : String) :
    (Json.read? (enclose name output)).isSome = true := by
  unfold enclose
  dsimp only
  split
  · rw [read?_failureJson]
    rfl
  · split
    · next hjson => exact hjson
    · rw [read?_failureJson]
      rfl

/-- The line break after an object is cut off, and nothing else. -/
@[simp] theorem trimBlank_line {text : String} {inside : List Char}
    (h : text.toList = '\x7b' :: (inside ++ ['\x7d'])) : trimBlank (line text).toList = text.toList := by
  have hopening : isBlank '\x7b' = false := by decide
  have hclosing : isBlank '\x7d' = false := by decide
  have hline : (line text).toList = '\x7b' :: (inside ++ ['\x7d', '\n']) := by
    rw [line, String.toList_append, h, List.cons_append, List.append_assoc]
    rfl
  have hreverse : ('\x7b' :: (inside ++ ['\x7d', '\n'])).reverse =
      '\n' :: '\x7d' :: ('\x7b' :: inside).reverse := by simp
  rw [trimBlank, hline, h, List.dropWhile_cons_of_neg (by simp [hopening]), hreverse,
    List.dropWhile_cons_of_pos (by decide), List.dropWhile_cons_of_neg (by simp [hclosing])]
  simp

/-- **An object is passed on** as it is. -/
@[simp] theorem read?_enclose {output : String} {entries : List (String × Document)}
    (h : HoldsObject output entries) (name : String) :
    Json.read? (enclose name output) = some (.table entries) := by
  obtain ⟨text, inside, rfl, hbraces, hread⟩ := h
  have hsome : (Json.read? text).isSome = true := by rw [hread]; rfl
  have hnonempty : ¬ text.toList.isEmpty = true := by
    rw [hbraces]
    exact Bool.false_ne_true
  unfold enclose
  dsimp only
  rw [trimBlank_line hbraces, if_neg hnonempty, String.ofList_toList, if_pos hsome]
  exact hread

/-! ## Tools -/

/-- The options of a tool. -/
def toolOptions (root : Option String) : Options := { root := root.getD "", json := true }

variable {w : Wording} {t : FileTree} {current : Path} {command : Command} {expression : String}
  {root : Option String}

/-- **A tool is a command with JSON as its output**, and its command line is not misunderstood. -/
theorem useTool_eq [Numerics] (hroot : ∀ r ∈ root, r.toList.head? ≠ some '-') :
    useTool w t current command expression root =
      (answerExpression w t current command (toolOptions root) expression).map
        fun r => enclose command.name r.output := by
  have accepted := Request.ofArguments_toolArguments command expression hroot
  rw [useTool, respondJson, respond_of_accepted accepted]
  rfl

/-- **Every tool answers with an object** that holds its command and its expression, unless the settings
file states a version that is too large to be written, or the first one that is looked for is too long. -/
theorem useTool_cases [Numerics] (hroot : ∀ r ∈ root, r.toList.head? ≠ some '-')
    (askable : Askable current (toolOptions root)) (readable : Readable t current (toolOptions root)) :
    (∃ answer ok entries, useTool w t current command expression root = .ok answer ∧
        Json.read? answer = some (.table (envelope command expression ok ++ entries))) ∧
        ¬ StatesOverlongVersion t current (toolOptions root) ∧
          (∀ p, ¬ AsksTooLong t current (toolOptions root) p) ∨
      useTool w t current command expression root = .error (.excess .digitsWritten) ∧
        StatesOverlongVersion t current (toolOptions root) ∨
      ∃ p, useTool w t current command expression root = .error (.path (.tooLong p.route)) ∧
        AsksTooLong t current (toolOptions root) p := by
  rw [useTool_eq hroot]
  rcases answerExpression_cases (w := w) askable readable command expression with
    ⟨⟨r, hr, horderly⟩, hasked⟩ | ⟨hnone, hlong⟩ | ⟨p, hnone, hlong⟩
  · obtain ⟨entries, hobject⟩ := horderly.json rfl
    rw [hr]
    exact .inl ⟨⟨_, _, entries, rfl, read?_enclose hobject command.name⟩, hasked⟩
  · rw [hnone]
    exact .inr (.inl ⟨rfl, hlong⟩)
  · rw [hnone]
    exact .inr (.inr ⟨p, rfl, hlong⟩)

/-! ## Values -/

/-- A document **presents a value**: it is the number itself if it is finite, and its name otherwise. -/
def Presents (d : Document) (v : Binary64) : Prop :=
  v.isFinite = true ∧ d = .number v ∨ v.isNaN = true ∧ d = .text "nan" ∨
    v = .infinity false ∧ d = .text "inf" ∨ v = .infinity true ∧ d = .text "-inf"

/-- A number as data presents it. -/
theorem presents_valueDocument (v : Binary64) : Presents (valueDocument v) v := by
  rw [valueDocument]
  by_cases hfinite : v.isFinite = true
  · rw [if_pos hfinite]
    exact .inl ⟨hfinite, rfl⟩
  · rw [if_neg hfinite]
    cases v with
    | nan negative => exact .inr (.inl ⟨rfl, rfl⟩)
    | number negative rank rank_le =>
      obtain rfl : rank = topRank := Nat.le_antisymm rank_le (Nat.le_of_not_lt fun hlt =>
        hfinite (decide_eq_true hlt))
      cases negative with
      | false => exact .inr (.inr (.inl ⟨rfl, rfl⟩))
      | true => exact .inr (.inr (.inr ⟨rfl, rfl⟩))

/-- **The tool for values** succeeds exactly when the expression has a value, and presents the value. -/
theorem useTool_eval [Numerics] (hroot : ∀ r ∈ root, r.toList.head? ≠ some '-') {settings : Settings}
    (loads : settingsFor w t current (toolOptions root) = .ok settings) :
    ∃ answer ok entries, useTool w t current .eval expression root = .ok answer ∧
      Json.read? answer = some (.table (envelope .eval expression ok ++ entries)) ∧
      (ok = true ↔ ∃ v, evaluate settings.limits (some expression) = .ok v) ∧
      ∀ v, evaluate settings.limits (some expression) = .ok v →
        ∃ d more, entries = ("value", d) :: more ∧ Presents d v := by
  rw [useTool_eq hroot]
  obtain ⟨r, hr, ⟨_, ⟨v, hv, rfl⟩, hshows⟩ | ⟨f, hrejects, hreports⟩⟩ :=
    answerExpression_of_loads loads .eval expression
  · rw [hr]
    refine ⟨_, true, _, rfl, read?_enclose (hshows.json rfl) _, ⟨fun _ => ⟨v, hv⟩, fun _ => rfl⟩, ?_⟩
    intro w hw
    obtain rfl := Except.ok.inj (hv.symm.trans hw)
    exact ⟨_, _, rfl, presents_valueDocument v⟩
  · have hnone : ∀ v, evaluate settings.limits (some expression) ≠ .ok v := by
      intro v hv
      cases hv.symm.trans hrejects
    rw [hr]
    refine ⟨_, false, _, rfl, read?_enclose (hreports.json rfl) _, ⟨fun h => ?_, ?_⟩,
      fun v hv => absurd hv (hnone v)⟩
    · cases h
    · rintro ⟨v, hv⟩
      exact absurd hv (hnone v)

/-! ## Command lines -/

/-- **Every command line is answered with JSON**, apart from those for a server, unless the settings file
states a version that is too large to be written, or the first one that is looked for is too long. -/
theorem respondJson_cases [Numerics] {arguments : List String}
    (other : ∀ root, Request.ofArguments arguments ≠ .ok (.serve root))
    (settled : ∀ command options text,
      Request.ofArguments arguments = .ok (.expression command options text) →
        Askable current options ∧ Readable t current options) :
    (∃ answer, respondJson w t current arguments = .ok answer ∧ (Json.read? answer).isSome = true) ∨
      ∃ command options text,
        Request.ofArguments arguments = .ok (.expression command options text) ∧
          (respondJson w t current arguments = .error (.excess .digitsWritten) ∧
              StatesOverlongVersion t current options ∨
            ∃ p, respondJson w t current arguments = .error (.path (.tooLong p.route)) ∧
              AsksTooLong t current options p) := by
  rw [respondJson]
  cases harguments : Request.ofArguments arguments with
  | error stop =>
    rw [respond, harguments]
    exact .inl ⟨_, rfl, isSome_read?_enclose _ _⟩
  | ok request =>
    cases request with
    | serve root => exact absurd harguments (other root)
    | expression command options text =>
      obtain ⟨askable, readable⟩ := settled command options text harguments
      rw [respond_of_accepted harguments]
      rcases answerExpression_cases (w := w) askable readable command text with
        ⟨⟨r, hr, -⟩, -⟩ | ⟨hnone, hlong⟩ | ⟨p, hnone, hlong⟩
      · rw [hr]
        exact .inl ⟨_, rfl, isSome_read?_enclose _ _⟩
      · rw [hnone]
        exact .inr ⟨command, options, text, rfl, .inl ⟨rfl, hlong⟩⟩
      · rw [hnone]
        exact .inr ⟨command, options, text, rfl, .inr ⟨p, rfl, hlong⟩⟩

/-- **Tools and command lines are answered in JSON.** A tool's answer is an object with its command and
its expression; the tool for values succeeds exactly when the expression has a value within the limits of
the settings, and presents the value. There is no answer only where the settings file states a version
that is too large to be written, or where the first settings file that is looked for is at a path that is
too long to be asked about. -/
theorem tools_outcome [Numerics] (w : Wording) (t : FileTree) (current : Path) :
    (∀ command expression root, (∀ r ∈ root, r.toList.head? ≠ some '-') →
      Askable current (toolOptions root) → Readable t current (toolOptions root) →
        (∃ answer ok entries, useTool w t current command expression root = .ok answer ∧
            Json.read? answer = some (.table (envelope command expression ok ++ entries))) ∧
            ¬ StatesOverlongVersion t current (toolOptions root) ∧
              (∀ p, ¬ AsksTooLong t current (toolOptions root) p) ∨
          useTool w t current command expression root = .error (.excess .digitsWritten) ∧
            StatesOverlongVersion t current (toolOptions root) ∨
          ∃ p, useTool w t current command expression root = .error (.path (.tooLong p.route)) ∧
            AsksTooLong t current (toolOptions root) p) ∧
    (∀ expression root settings, (∀ r ∈ root, r.toList.head? ≠ some '-') →
      settingsFor w t current (toolOptions root) = .ok settings →
        ∃ answer ok entries, useTool w t current .eval expression root = .ok answer ∧
          Json.read? answer = some (.table (envelope .eval expression ok ++ entries)) ∧
          (ok = true ↔ ∃ v, evaluate settings.limits (some expression) = .ok v) ∧
          ∀ v, evaluate settings.limits (some expression) = .ok v →
            ∃ d more, entries = ("value", d) :: more ∧ Presents d v) ∧
    ∀ arguments, (∀ root, Request.ofArguments arguments ≠ .ok (.serve root)) →
      (∀ command options text, Request.ofArguments arguments = .ok (.expression command options text) →
        Askable current options ∧ Readable t current options) →
        (∃ answer, respondJson w t current arguments = .ok answer ∧
            (Json.read? answer).isSome = true) ∨
          ∃ command options text,
            Request.ofArguments arguments = .ok (.expression command options text) ∧
              (respondJson w t current arguments = .error (.excess .digitsWritten) ∧
                  StatesOverlongVersion t current options ∨
                ∃ p, respondJson w t current arguments = .error (.path (.tooLong p.route)) ∧
                  AsksTooLong t current options p) := by
  refine ⟨fun command expression root hroot askable readable => ?_,
    fun expression root settings hroot loads => ?_, fun arguments other settled => ?_⟩
  · exact useTool_cases hroot askable readable
  · exact useTool_eval hroot loads
  · exact respondJson_cases other settled

/-- From the outermost folder, without a settings file, a tool answers even about two hyphens. -/
theorem tools_outcome_of_empty :
    Askable Path.root (toolOptions none) ∧ Readable .empty Path.root (toolOptions none) ∧
      ∃ answer ok entries, useTool .plain .empty Path.root .eval "--" none = .ok answer ∧
        Json.read? answer = some (.table (envelope .eval "--" ok ++ entries)) := by
  have hroot : ∀ r ∈ (none : Option String), r.toList.head? ≠ some '-' := fun r hr => nomatch hr
  have htext : settingsText? .empty Path.root (toolOptions none) = none := rfl
  have askable : Askable Path.root (toolOptions none) := askable_root rfl rfl
  have readable : Readable .empty Path.root (toolOptions none) := readable_of_none htext
  refine ⟨askable, readable, ?_⟩
  rcases (tools_outcome .plain .empty Path.root).1 .eval "--" none hroot askable readable with
    ⟨hanswer, -⟩ | ⟨-, hlong⟩ | ⟨p, -, hlong⟩
  · exact hanswer
  · exact absurd hlong (not_statesOverlongVersion_of_none htext)
  · exact absurd hlong (not_asksTooLong_root .empty rfl rfl p)

/-- A version that is too large to be written leaves a tool without an answer. -/
theorem useTool_overlongTree :
    Askable Path.root (toolOptions none) ∧
      Readable overlongTree Path.root (toolOptions none) ∧
        ∀ answer, useTool .plain overlongTree Path.root .eval "1" none ≠ .ok answer := by
  have askable : Askable Path.root (toolOptions none) := askable_root rfl rfl
  obtain ⟨readable, hlong⟩ : Readable overlongTree Path.root (toolOptions none) ∧
      StatesOverlongVersion overlongTree Path.root (toolOptions none) := overlongTree_states rfl rfl
  refine ⟨askable, readable, fun answer hanswer => ?_⟩
  have hroot : ∀ r ∈ (none : Option String), r.toList.head? ≠ some '-' := fun r hr => nomatch hr
  rcases useTool_cases (w := .plain) hroot askable readable with
    ⟨-, hshort, -⟩ | ⟨hnone, -⟩ | ⟨p, hnone, -⟩
  · exact hshort hlong
  · cases hnone.symm.trans hanswer
  · cases hnone.symm.trans hanswer

end Console

end Reckoner
