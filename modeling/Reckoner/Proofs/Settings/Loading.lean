import Reckoner.Console.Response
import Reckoner.Proofs.Settings.Discovery

/-! # When settings can be loaded

Loading settings gives the settings, or says what is wrong with their file. There are four exceptions: a
path that cannot be asked about at all, a settings file whose own path is too long when it is looked for,
a file with something in it that is too large to be read, and a version with so many digits that the
message about it cannot be written.

* **`Console.settingsFiles`, `Console.AsksTooLong`** — the settings files that are looked for, the first
  of which may have a path that is too long.
* **`Console.Askable`** — options that name paths which can be asked about.
* **`Console.settingsText?`** — the text of the settings file that applies.
* **`Console.Readable`** — nothing in that text is too large to be read.
* **`Console.StatesOverlongVersion`** — the text states a version that is too large to be written.
* **`Console.settingsFor_cases`** — what comes of loading the settings.
* **`Console.overlongTree`** — a folder with such a version in its settings file. -/

namespace Reckoner

/-- A sequence fails in its first part or in the second. -/
theorem cases_of_bind_eq_error {ε α β : Type} {x : Except ε α} {f : α → Except ε β} {e : ε}
    (h : (x >>= f) = .error e) : x = .error e ∨ ∃ a, x = .ok a ∧ f a = .error e := by
  cases x with
  | error e' =>
    cases h
    exact .inl rfl
  | ok a => exact .inr ⟨a, rfl, h⟩

/-! ## The version that a document states -/

namespace Settings

/-- Sections have no version. -/
theorem section?_ne_unsupported (d : Document) (name : String) (n : Int) : section? d name ≠
    .error (.unsupportedVersion n) := by
  unfold section?
  split <;> simp

/-- Nor have integers. -/
theorem integer?_ne_unsupported (table : Document) (title key : String) (default n : Int) :
    integer? table title key default ≠ .error (.unsupportedVersion n) := by
  unfold integer? asInteger
  split
  · simp
  · split <;> simp

/-- Nor texts. -/
theorem text?_ne_unsupported (table : Document) (title key default : String) (n : Int) :
    text? table title key default ≠ .error (.unsupportedVersion n) := by
  unfold text? asText
  split
  · simp
  · split <;> simp

/-- Nor the bounds of values. -/
theorem ofValues_ne_unsupported (maxDepth maxLength precision : Int) (level : String) (n : Int) :
    ofValues maxDepth maxLength precision level ≠ .error (.unsupportedVersion n) := by
  unfold ofValues
  split
  · split
    · split <;> simp
    · simp
  · simp

/-- A version that is refused is stated, and is another one. -/
theorem get?_version_of_checkVersion {d : Document} {n : Int}
    (h : checkVersion d = .error (.unsupportedVersion n)) :
    d.get? "version" = some (.integer n) ∧ n ≠ version := by
  unfold checkVersion at h
  split at h
  · cases h
  · cases h
  · next v _ hv =>
    cases v with
    | integer m =>
      rw [asInteger] at h
      by_cases hm : m = version
      · rw [Except.bind, if_pos hm] at h
        cases h
      · rw [Except.bind, if_neg hm] at h
        cases h
        exact ⟨hv, hm⟩
    | _ => cases h

/-- **The version that is refused** is the one that the document states. -/
theorem get?_version_of_unsupported {d : Document} {n : Int}
    (h : ofDocument d = .error (.unsupportedVersion n)) : d.get? "version" = some (.integer n) := by
  rw [ofDocument] at h
  rcases cases_of_bind_eq_error h with hversion | ⟨_, -, h⟩
  · exact (get?_version_of_checkVersion hversion).1
  -- nothing after the version is about the version
  rcases cases_of_bind_eq_error h with hlimits | ⟨limits, -, h⟩
  · exact absurd hlimits (section?_ne_unsupported d _ n)
  rcases cases_of_bind_eq_error h with houtput | ⟨output, -, h⟩
  · exact absurd houtput (section?_ne_unsupported d _ n)
  rcases cases_of_bind_eq_error h with hlog | ⟨log, -, h⟩
  · exact absurd hlog (section?_ne_unsupported d _ n)
  rcases cases_of_bind_eq_error h with hdepth | ⟨maxDepth, -, h⟩
  · exact absurd hdepth (integer?_ne_unsupported _ _ _ _ n)
  rcases cases_of_bind_eq_error h with hlength | ⟨maxLength, -, h⟩
  · exact absurd hlength (integer?_ne_unsupported _ _ _ _ n)
  rcases cases_of_bind_eq_error h with hprecision | ⟨precision, -, h⟩
  · exact absurd hprecision (integer?_ne_unsupported _ _ _ _ n)
  rcases cases_of_bind_eq_error h with hlevel | ⟨level, -, h⟩
  · exact absurd hlevel (text?_ne_unsupported _ _ _ _ n)
  exact absurd h (ofValues_ne_unsupported maxDepth maxLength precision level n)

/-- A version other than the supported one is refused before anything else. -/
theorem ofDocument_of_version {d : Document} {n : Int} (h : d.get? "version" = some (.integer n))
    (other : n ≠ version) : ofDocument d = .error (.unsupportedVersion n) := by
  have hcheck : checkVersion d = .error (.unsupportedVersion n) := by
    rw [checkVersion, h]
    exact if_neg other
  rw [ofDocument, hcheck]
  rfl

end Settings

/-- The version that is supported has few digits. -/
theorem ne_version_of_isOverlong {n : Int} (h : isOverlong n = true) : n ≠ Settings.version := by
  rintro rfl
  exact Nat.not_le_of_lt one_lt_overlongFrom (isOverlong_iff.mp h)

/-- The settings in a document, as a file states them. -/
def Settings.load (document : Document) : Except LoadFailure Settings :=
  (Settings.ofDocument document).mapError .ofCause

/-- **Settings in a document** are there, or the document is at fault, unless it states a version that
is too large to be written. -/
theorem Settings.load_cases (d : Document) :
    ((∃ settings, load d = .ok settings) ∨ ∃ c, load d = .error (.cause c)) ∧
        (∀ n, d.get? "version" = some (.integer n) → isOverlong n = false) ∨
      load d = .error (.excess .digitsWritten) ∧
        ∃ n, d.get? "version" = some (.integer n) ∧ isOverlong n = true := by
  by_cases hoverlong : ∃ n, d.get? "version" = some (.integer n) ∧ isOverlong n = true
  · refine .inr ⟨?_, hoverlong⟩
    obtain ⟨n, hversion, hn⟩ := hoverlong
    rw [load, ofDocument_of_version hversion (ne_version_of_isOverlong hn)]
    show Except.error (LoadFailure.ofCause _) = _
    rw [LoadFailure.ofCause, if_pos hn]
  · have hshort : ∀ n, d.get? "version" = some (.integer n) → isOverlong n = false := by
      intro n hversion
      cases hn : isOverlong n with
      | false => rfl
      | true => exact absurd ⟨n, hversion, hn⟩ hoverlong
    refine .inl ⟨?_, hshort⟩
    rw [load]
    cases hd : ofDocument d with
    | ok settings => exact .inl ⟨settings, rfl⟩
    | error c =>
      refine .inr ⟨c, ?_⟩
      show Except.error (LoadFailure.ofCause c) = _
      unfold LoadFailure.ofCause
      split
      · next n =>
        rw [hshort n (get?_version_of_unsupported hd), if_neg Bool.false_ne_true]
      · rfl

/-! ## The file that applies -/

namespace Console

variable (w : Wording) (t : FileTree) (current : Path) (options : Options)

/-- The **settings files that are looked for**, in order: none if a file is named, the one in the given
folder, or those at and above the current folder. -/
def settingsFiles : List Path :=
  if options.config ≠ "" then []
  else if options.root ≠ "" then [(Path.ofText current options.root).resolved.child settingsFile]
  else (firstFolder t current current.route).ancestors.map fun folder => folder.child settingsFile

/-- The first settings file that is looked for is at a path that is **too long to be asked about**. -/
def AsksTooLong (p : Path) : Prop :=
  (settingsFiles t current options).head? = some p ∧ t.reach p = .tooLong

/-- The paths of options **can be asked about**: they hold no null character, and nor does that of the
current folder. -/
structure Askable : Prop where
  root : options.root ≠ "" → (Path.ofText current options.root).names.any holdsNull = false
  config : options.config ≠ "" → (Path.ofText current options.config).names.any holdsNull = false
  here : current.names.any holdsNull = false

/-- The settings file that applies, if there is one and its path can be asked about. -/
def applicableFile? : Option Path :=
  match optionPath current options.root, optionPath current options.config with
  | .ok folder, .ok file => (chooseSettings t current folder file).toOption.join
  | _, _ => none

/-- The **text of the settings file** that applies. -/
def settingsText? : Option String :=
  (applicableFile? t current options).bind fun path =>
    match t.reach path with
    | .file content => String.fromUTF8? content
    | _ => none

/-- The settings file that applies is **readable** when nothing in it is too large to be read. -/
def Readable : Prop :=
  ∀ text ∈ settingsText? t current options, ∀ e, Toml.read text ≠ .error (.excess e)

/-- The settings file that applies **states an overlong version**: an integer with so many digits that it
cannot be written. -/
def StatesOverlongVersion : Prop :=
  ∃ text ∈ settingsText? t current options, ∃ document n, Toml.read text = .ok document ∧
    document.get? "version" = some (.integer n) ∧ isOverlong n = true

variable {w t current options}

/-- An option without a null character names its path, or none. -/
@[simp] theorem optionPath_eq_ok {s : String}
    (h : s ≠ "" → (Path.ofText current s).names.any holdsNull = false) :
    optionPath current s = .ok (if s = "" then none else some (Path.ofText current s).resolved) := by
  rw [optionPath]
  by_cases hs : s = ""
  · rw [if_pos hs, if_pos hs]
  · rw [if_neg hs, if_neg hs, resolve_eq_ok (h hs)]
    rfl

/-- The nearest settings file is a file. -/
theorem hasFile_of_nearest {folder p : Path} (h : NearestSettings t folder (some p)) : t.HasFile p := by
  cases h with
  | found above file nearest => exact file

/-- There is something at the path of a file. -/
theorem reach_ne_malformed_of_hasFile {p : Path} (h : t.HasFile p) : t.reach p ≠ .malformed := by
  obtain ⟨content, hcontent⟩ := h
  rw [hcontent]
  exact nofun

/-- The settings file in a given folder applies if it is there and not too long. -/
theorem chooseSettings_folder_cases (t : FileTree) (current folder : Path) :
    (∃ found, chooseSettings t current (some folder) none = .ok found ∧
        (∀ p ∈ found, t.reach p ≠ .malformed) ∧ t.reach (folder.child settingsFile) ≠ .tooLong) ∨
      chooseSettings t current (some folder) none =
          .error (.tooLong (folder.child settingsFile).route) ∧
        t.reach (folder.child settingsFile) = .tooLong := by
  rw [chooseSettings]
  by_cases hlong : t.reach (folder.child settingsFile) = .tooLong
  · have hanswer : t.isFile (folder.child settingsFile) =
        .error (.tooLong (folder.child settingsFile).route) := by
      rw [FileTree.isFile, FileTree.isFileFrom, FileTree.reachFrom_route, hlong]
    rw [hanswer]
    exact .inr ⟨rfl, hlong⟩
  · obtain ⟨found, hfound⟩ := isFile_eq_ok hlong
    rw [hfound]
    refine .inl ⟨_, rfl, fun p hp => ?_, hlong⟩
    obtain ⟨rfl, hp⟩ := Option.ite_none_right_eq_some.mp hp
    obtain rfl := Option.some.inj hp
    exact reach_ne_malformed_of_hasFile (hasFile_of_isFile hfound)

/-- The nearest settings file to the current folder applies if the first one on the way is not too long. -/
theorem chooseSettings_current_cases (here : current.names.any holdsNull = false) :
    (∃ found, chooseSettings t current none none = .ok found ∧
        (∀ p ∈ found, t.reach p ≠ .malformed) ∧
        t.reach ((firstFolder t current current.route).child settingsFile) ≠ .tooLong) ∨
      chooseSettings t current none none =
          .error (.tooLong ((firstFolder t current current.route).child settingsFile).route) ∧
        t.reach ((firstFolder t current current.route).child settingsFile) = .tooLong := by
  have hplain : (current.route.path current).names.any holdsNull = false := here
  rw [chooseSettings]
  by_cases hlong : t.reach ((firstFolder t current current.route).child settingsFile) = .tooLong
  · exact .inr ⟨findSettings_tooLong hplain hlong, hlong⟩
  · obtain ⟨found, hfound, hnearest⟩ := exists_nearest_findSettings hplain hlong
    refine .inl ⟨found, hfound, fun p hp => ?_, hlong⟩
    obtain rfl := Option.mem_def.mp hp
    exact reach_ne_malformed_of_hasFile (hasFile_of_nearest hnearest)

/-- It is enough to know what is chosen for the paths of the options, and which file is asked about
first. -/
theorem chooseSettings_cases_of_first {folder file first : Option Path}
    (hfolder : optionPath current options.root = .ok folder)
    (hfile : optionPath current options.config = .ok file)
    (hfirst : (settingsFiles t current options).head? = first)
    (h : (∃ found, chooseSettings t current folder file = .ok found ∧
        (∀ p ∈ found, t.reach p ≠ .malformed) ∧ ∀ p ∈ first, t.reach p ≠ .tooLong) ∨
      ∃ p ∈ first, chooseSettings t current folder file = .error (.tooLong p.route) ∧
        t.reach p = .tooLong) :
    chooseSettings t current folder file = .ok (applicableFile? t current options) ∧
        (∀ p ∈ applicableFile? t current options, t.reach p ≠ .malformed) ∧
        (∀ p, ¬ AsksTooLong t current options p) ∨
      ∃ p, chooseSettings t current folder file = .error (.tooLong p.route) ∧
        AsksTooLong t current options p := by
  rcases h with ⟨found, hfound, hreach, hshort⟩ | ⟨p, hp, hfails, hlong⟩
  · have happlicable : applicableFile? t current options = found := by
      rw [applicableFile?, hfolder, hfile]
      dsimp only
      rw [hfound]
      rfl
    rw [happlicable]
    exact .inl ⟨hfound, hreach, fun p hp => hshort p (hfirst.symm.trans hp.1) hp.2⟩
  · exact .inr ⟨p, hfails, hfirst.trans hp, hlong⟩

/-- **The settings file that applies** is found if the paths can be asked about, and its own path leads
somewhere or nowhere; unless the first one that is looked for is too long. -/
theorem Askable.chooseSettings_cases (h : Askable current options) :
    ∃ folder file, optionPath current options.root = .ok folder ∧
      optionPath current options.config = .ok file ∧
        (chooseSettings t current folder file = .ok (applicableFile? t current options) ∧
            (∀ p ∈ applicableFile? t current options, t.reach p ≠ .malformed) ∧
            (∀ p, ¬ AsksTooLong t current options p) ∨
          ∃ p, chooseSettings t current folder file = .error (.tooLong p.route) ∧
            AsksTooLong t current options p) := by
  have hroot := optionPath_eq_ok h.root
  have hconfig := optionPath_eq_ok h.config
  by_cases hnamed : options.config = ""
  · rw [if_pos hnamed] at hconfig
    by_cases hfolder : options.root = ""
    · rw [if_pos hfolder] at hroot
      obtain ⟨above, hancestors⟩ := (firstFolder t current current.route).exists_ancestors
      have hfirst : (settingsFiles t current options).head? =
          some ((firstFolder t current current.route).child settingsFile) := by
        rw [settingsFiles, if_neg (not_not_intro hnamed), if_neg (not_not_intro hfolder), hancestors]
        rfl
      refine ⟨_, _, hroot, hconfig, chooseSettings_cases_of_first hroot hconfig hfirst ?_⟩
      rcases chooseSettings_current_cases h.here with ⟨found, hfound, hreach, hshort⟩ | hfails
      · refine .inl ⟨found, hfound, hreach, fun p hp => ?_⟩
        rwa [← Option.some.inj hp]
      · exact .inr ⟨_, rfl, hfails⟩
    · rw [if_neg hfolder] at hroot
      have hfirst : (settingsFiles t current options).head? =
          some ((Path.ofText current options.root).resolved.child settingsFile) := by
        rw [settingsFiles, if_neg (not_not_intro hnamed), if_pos hfolder]
        rfl
      refine ⟨_, _, hroot, hconfig, chooseSettings_cases_of_first hroot hconfig hfirst ?_⟩
      rcases chooseSettings_folder_cases t current (Path.ofText current options.root).resolved with
        ⟨found, hfound, hreach, hshort⟩ | hfails
      · refine .inl ⟨found, hfound, hreach, fun p hp => ?_⟩
        rwa [← Option.some.inj hp]
      · exact .inr ⟨_, rfl, hfails⟩
  · rw [if_neg hnamed] at hconfig
    have hfirst : (settingsFiles t current options).head? = none := by
      rw [settingsFiles, if_pos hnamed]
      rfl
    -- nothing is looked for if a file is named
    refine ⟨_, _, hroot, hconfig, chooseSettings_cases_of_first hroot hconfig hfirst ?_⟩
    refine .inl ⟨_, rfl, fun p hp => ?_, nofun⟩
    obtain rfl := Option.some.inj hp
    exact reach_ne_malformed (any_holdsNull_resolved (h.config hnamed))

/-- Without a settings file nothing is too large. -/
theorem readable_of_none (h : settingsText? t current options = none) :
    Readable t current options := by
  intro text htext
  rw [h] at htext
  cases htext

/-- Without a file no version is stated. -/
theorem not_statesOverlongVersion_of_none (h : settingsText? t current options = none) :
    ¬ StatesOverlongVersion t current options := by
  rintro ⟨text, htext, -⟩
  rw [h] at htext
  cases htext

/-- What comes of reading the settings file that applies. -/
theorem settingsIn_cases (readable : Readable t current options) {path : Path} {content : ByteArray}
    (htext : settingsText? t current options = String.fromUTF8? content) :
    ((∃ settings, settingsIn w path content = .ok settings) ∨
        ∃ c, settingsIn w path content = .error (.cause c)) ∧
          ¬ StatesOverlongVersion t current options ∨
      settingsIn w path content = .error (.excess .digitsWritten) ∧
        StatesOverlongVersion t current options := by
  rw [settingsIn]
  cases hdecode : String.fromUTF8? content with
  | none =>
    refine .inl ⟨.inr ⟨_, rfl⟩, ?_⟩
    rintro ⟨text, hmem, -⟩
    rw [htext, hdecode] at hmem
    cases hmem
  | some text =>
    rw [hdecode] at htext
    -- an overlong version is stated by the document that is read
    have hstates : ∀ {result}, Toml.read text = result →
        (StatesOverlongVersion t current options ↔ ∃ document n, result = .ok document ∧
          document.get? "version" = some (.integer n) ∧ isOverlong n = true) := by
      rintro result rfl
      refine ⟨?_, fun hstated => ⟨text, htext, hstated⟩⟩
      rintro ⟨text', hmem, hstated⟩
      obtain rfl := Option.some.inj (htext.symm.trans hmem)
      exact hstated
    dsimp only
    cases hread : Toml.read text with
    | error e =>
      cases e with
      | malformed =>
        refine .inl ⟨.inr ⟨_, rfl⟩, fun hstated => ?_⟩
        obtain ⟨document, n, hdocument, -⟩ := (hstates hread).mp hstated
        cases hdocument
      | excess e => exact absurd hread (readable text htext e)
    | ok document =>
      rcases Settings.load_cases document with ⟨hloads, hshort⟩ | ⟨hloads, n, hversion, hlong⟩
      · refine .inl ⟨hloads, fun hstated => ?_⟩
        obtain ⟨document', n, hdocument, hversion, hlong⟩ := (hstates hread).mp hstated
        cases hdocument
        rw [hshort n hversion] at hlong
        cases hlong
      · exact .inr ⟨hloads, (hstates hread).mpr ⟨document, n, rfl, hversion, hlong⟩⟩

/-- What comes of reading the file that applies. -/
theorem readSettings_cases (readable : Readable t current options) {path : Path}
    (applies : applicableFile? t current options = some path) (reachable : t.reach path ≠ .malformed) :
    ((∃ settings, readSettings w t path = .ok settings) ∨
        ∃ c, readSettings w t path = .error (.cause c)) ∧
          ¬ StatesOverlongVersion t current options ∨
      readSettings w t path = .error (.excess .digitsWritten) ∧
        StatesOverlongVersion t current options := by
  have htext : settingsText? t current options = match t.reach path with
      | .file content => String.fromUTF8? content
      | _ => none := by
    rw [settingsText?, applies, Option.bind_some]
  rw [readSettings]
  split
  · next content hcontent =>
    rw [hcontent] at htext
    exact settingsIn_cases readable htext
  · next hmissing =>
    rw [hmissing] at htext
    exact .inl ⟨.inr ⟨_, rfl⟩, not_statesOverlongVersion_of_none htext⟩
  · next hbad => exact absurd hbad reachable
  · next hother _ _ =>
    have hnothing : settingsText? t current options = none := by
      rw [htext]
      split
      · next content hcontent => exact absurd hcontent (hother content)
      · rfl
    exact .inl ⟨.inr ⟨_, rfl⟩, not_statesOverlongVersion_of_none hnothing⟩

/-- **What comes of loading settings** whose paths can be asked about and whose file can be read. There
are settings, or something is wrong with the file; but an overlong version is refused without an answer,
and so is a first settings file at a path that is too long. -/
theorem settingsFor_cases (askable : Askable current options) (readable : Readable t current options) :
    ((∃ settings, settingsFor w t current options = .ok settings) ∨
        ∃ c, settingsFor w t current options = .error (.cause c)) ∧
          ¬ StatesOverlongVersion t current options ∧ (∀ p, ¬ AsksTooLong t current options p) ∨
      settingsFor w t current options = .error (.excess .digitsWritten) ∧
        StatesOverlongVersion t current options ∨
      ∃ p, settingsFor w t current options = .error (.path (.tooLong p.route)) ∧
        AsksTooLong t current options p := by
  obtain ⟨folder, file, hfolder, hfile, ⟨hchosen, hreach, hasked⟩ | ⟨p, hfails, hlong⟩⟩ :=
    askable.chooseSettings_cases (t := t)
  · have hload : settingsFor w t current options =
        match applicableFile? t current options with
        | none => .ok {}
        | some path => readSettings w t path := by
      rw [settingsFor, hfolder, hfile]
      dsimp only
      rw [loadSettings, hchosen]
      cases applicableFile? t current options <;> rfl
    rw [hload]
    cases hpath : applicableFile? t current options with
    | none =>
      refine .inl ⟨.inl ⟨{}, rfl⟩, not_statesOverlongVersion_of_none ?_, hasked⟩
      rw [settingsText?, hpath, Option.bind_none]
    | some path =>
      rcases readSettings_cases (w := w) readable hpath (hreach path hpath) with
        ⟨hsettings, hshort⟩ | hexcess
      · exact .inl ⟨hsettings, hshort, hasked⟩
      · exact .inr (.inl hexcess)
  · refine .inr (.inr ⟨p, ?_, hlong⟩)
    rw [settingsFor, hfolder, hfile]
    dsimp only
    rw [loadSettings, hfails]

/-! ## A settings file in the outermost folder -/

/-- A text reads back from its bytes. -/
@[simp] theorem fromUTF8?_toUTF8 (s : String) : String.fromUTF8? s.toUTF8 = some s := by
  unfold String.fromUTF8?
  split
  · rfl
  · next hinvalid => exact absurd s.isValidUTF8 hinvalid

/-- From the outermost folder, options without paths can be asked about. -/
theorem askable_root (hroot : options.root = "") (hconfig : options.config = "") :
    Askable Path.root options :=
  ⟨fun h => absurd hroot h, fun h => absurd hconfig h, rfl⟩

/-- From the outermost folder, no settings file is at a path that is too long. -/
theorem not_asksTooLong_root (t : FileTree) (hroot : options.root = "") (hconfig : options.config = "")
    (p : Path) : ¬ AsksTooLong t Path.root options p := by
  rintro ⟨hfirst, hlong⟩
  have hsearch : firstFolder t .root Path.root.route = Path.root := by
    rw [firstFolder, searchFolder]
    split <;> rfl
  rw [settingsFiles, if_neg (not_not_intro hconfig), if_neg (not_not_intro hroot), hsearch] at hfirst
  obtain rfl : (⟨[settingsFile]⟩ : Path) = p := Option.some.inj hfirst
  exact FileTree.walk_settingsFile_ne_tooLong [] t hlong

/-- The settings file in the outermost folder applies there. -/
theorem settingsText?_root (text : String) (hroot : options.root = "") (hconfig : options.config = "") :
    settingsText? (.folder [(settingsFile, .file text.toUTF8)]) Path.root options = some text := by
  have hpath : applicableFile? (.folder [(settingsFile, .file text.toUTF8)]) Path.root options =
      some ⟨[settingsFile]⟩ := by
    rw [applicableFile?, optionPath, optionPath, if_pos hroot, if_pos hconfig]
    rfl
  rw [settingsText?, hpath]
  exact fromUTF8?_toUTF8 text

/-- Whether a document is read that states an overlong version. -/
def readsOverlongVersion (result : Except Toml.Refusal Document) : Bool :=
  match result.toOption.bind (Document.get? "version") with
  | some (.integer n) => isOverlong n
  | _ => false

/-- What the test for such a version means. -/
theorem exists_overlong_version {result : Except Toml.Refusal Document}
    (h : readsOverlongVersion result = true) : ∃ document n, result = .ok document ∧
      document.get? "version" = some (.integer n) ∧ isOverlong n = true := by
  unfold readsOverlongVersion at h
  split at h
  · next n hn =>
    cases result with
    | error e => cases hn
    | ok document => exact ⟨document, n, rfl, hn, h⟩
  · cases h

/-- A line that states a version of four thousand hexadecimal digits. -/
def overlongLine : List Char := "version = 0x".toList ++ List.replicate 4000 'f' ++ ['\n']

/-- A folder with a settings file that states an overlong version. -/
def overlongTree : FileTree := .folder [(settingsFile, .file (String.ofList overlongLine).toUTF8)]

/-- The line states such a version. -/
theorem read_overlongLine : ∃ document n, Toml.read (String.ofList overlongLine) = .ok document ∧
    document.get? "version" = some (.integer n) ∧ isOverlong n = true := by
  have hread : Toml.read (String.ofList overlongLine) =
      (Toml.readLines ((Toml.unifyLines overlongLine).length + 1) {}
        (Toml.unifyLines overlongLine)).map fun o => .table o.entries := by
    rw [Toml.read, String.toList_ofList]
  rw [hread]
  exact exists_overlong_version (by decide +kernel)

/-- The settings file can be read, but its version cannot be written. -/
theorem overlongTree_states (hroot : options.root = "") (hconfig : options.config = "") :
    Readable overlongTree Path.root options ∧ StatesOverlongVersion overlongTree Path.root options := by
  have htext := settingsText?_root (String.ofList overlongLine) hroot hconfig
  obtain ⟨document, n, hread, hversion⟩ := read_overlongLine
  constructor
  · intro text hmem e
    obtain rfl := Option.some.inj (htext.symm.trans hmem)
    rw [hread]
    exact fun h => nomatch h
  · exact ⟨_, htext, document, n, hread, hversion⟩

end Console

end Reckoner
