import Reckoner.Proofs.Settings.Loading

/-! # What is checked of a document

The settings in a document are what it states, with the defaults for what it does not state, if it passes a
list of checks. The first check that it fails decides what is wrong with it. Each check looks at one entry
or two, so that nothing else in a document matters.

* **`Settings.entry?`** — the entry under a key of a section.
* **`Settings.Check`** — the checks in their order, what it means to pass one, and what is wrong otherwise.
* **`Settings.Refuses`** — the first check that a document fails.
* **`Settings.StatedBy`** — the settings that a document states.
* **`Settings.Checked`** — a computation that goes through checks, one after another (`Decides.bind`).
* **`Settings.checked_ofDocument`** — the settings of a document go through all of them.
* **`Settings.Agree`** — documents that agree on what is checked.
* **`Settings.load_checks`** — what comes of the settings in a document. -/

namespace Reckoner

/-- The level that a text names is the one whose name has the same capitals. -/
theorem LogLevel.ofText?_eq_some_iff {s : String} {level : LogLevel} :
    LogLevel.ofText? s = some level ↔ s.toList.map capital = level.name.toList := by
  have hnames : ∀ l ∈ all, ∀ l' ∈ all, l.name.toList = l'.name.toList → l = l' := by decide
  have hall : ∀ l : LogLevel, l ∈ all := by
    intro l
    cases l <;> decide
  rw [ofText?]
  constructor
  · intro h
    have hfound := List.find?_some h
    exact (of_decide_eq_true hfound).symm
  · intro h
    cases hfind : all.find? fun l => decide (l.name.toList = s.toList.map capital) with
    | none =>
      have hno := List.find?_eq_none.mp hfind level (hall level)
      exact absurd (decide_eq_true h.symm) hno
    | some found =>
      have hfound := List.find?_some hfind
      rw [hnames found (hall found) level (hall level) ((of_decide_eq_true hfound).trans h)]

namespace Settings

/-! ## Checks -/

/-- The **entry** under a key of a section. There is none where the section is absent or no table. -/
def entry? (d : Document) (title key : String) : Option Document :=
  (d.get? title).bind (Document.get? key)

/-- What is **checked** of a document. -/
inductive Check where
  /-- The version is the supported one. -/
  | version
  /-- A section is a table. -/
  | table (title : String)
  /-- An entry is an integer. -/
  | integer (title key : String)
  /-- An entry is a text. -/
  | text (title key : String)
  /-- The limits are positive. -/
  | limits
  /-- The precision is within its bounds. -/
  | precision
  /-- The level has a name. -/
  | level

namespace Check

/-- All checks in their order: the version, the sections, their entries, and what the entries hold. -/
def all : List Check :=
  [.version, .table "limits", .table "output", .table "log", .integer "limits" "max_depth",
    .integer "limits" "max_length", .integer "output" "precision", .text "log" "level", .limits,
    .precision, .level]

/-- What it means for a document to **pass** a check. What is absent passes, and so does a section that is
null; but a version must be there. -/
def Passes (d : Document) : Check → Prop
  | version => d.get? "version" = some (.integer 1)
  | table title =>
    d.get? title = none ∨ d.get? title = some .null ∨ ∃ entries, d.get? title = some (.table entries)
  | integer title key => ∀ v ∈ entry? d title key, ∃ n, v = .integer n
  | text title key => ∀ v ∈ entry? d title key, ∃ s, v = .text s
  | limits =>
    (∀ n, entry? d "limits" "max_depth" = some (.integer n) → 1 ≤ n) ∧
      ∀ n, entry? d "limits" "max_length" = some (.integer n) → 1 ≤ n
  | precision => ∀ n, entry? d "output" "precision" = some (.integer n) → 1 ≤ n ∧ n ≤ 17
  | level =>
    ∀ s, entry? d "log" "level" = some (.text s) →
      ∃ level : LogLevel, s.toList.map LogLevel.capital = level.name.toList

/-- What is **wrong** with a document that fails a check. -/
def cause (d : Document) : Check → SettingsCause
  | version =>
    match d.get? "version" with
    | none => .missingVersion
    | some .null => .missingVersion
    | some (.integer n) => .unsupportedVersion n
    | some _ => .notInteger "version"
  | table title => .notTable title
  | integer title key => .notInteger (title ++ "." ++ key)
  | text title key => .notString (title ++ "." ++ key)
  | limits => .limitTooSmall
  | precision => .precisionOutOfRange
  | level => .unknownLevel

end Check

/-- The **first check** of a list that a document fails, by what is wrong with it. -/
inductive Refuses (d : Document) : List Check → SettingsCause → Prop
  | here {check : Check} {checks : List Check} (fails : ¬ check.Passes d) :
      Refuses d (check :: checks) (check.cause d)
  | later {check : Check} {checks : List Check} {c : SettingsCause} (passes : check.Passes d)
      (after : Refuses d checks c) : Refuses d (check :: checks) c

/-- An integer is **stated** under a key, or nothing is and the integer is the default. -/
def States (d : Document) (title key : String) (default n : Int) : Prop :=
  entry? d title key = some (.integer n) ∨ entry? d title key = none ∧ n = default

/-- The settings that a document **states**. -/
structure StatedBy (d : Document) (s : Settings) : Prop where
  maxDepth : States d "limits" "max_depth" 256 s.limits.maxDepth
  maxLength : States d "limits" "max_length" 10000 s.limits.maxLength
  precision : States d "output" "precision" 17 s.precision
  level : (∃ text, entry? d "log" "level" = some (.text text) ∧
      text.toList.map LogLevel.capital = s.level.name.toList) ∨
    entry? d "log" "level" = none ∧ s.level = .warning

/-! ## Going through checks -/

/-- A computation **goes through checks**: it gives a good value if all are passed, and otherwise what is
wrong by the first one that is failed. -/
structure Checked {α : Type} (d : Document) (checks : List Check) (x : Except SettingsCause α)
    (good : α → Prop) : Prop where
  ok_iff : ∀ a, x = .ok a ↔ (∀ check ∈ checks, check.Passes d) ∧ good a
  error_iff : ∀ c, x = .error c ↔ Refuses d checks c

/-- A computation **decides a check**: it gives a value if the check is passed. -/
structure Decides {α : Type} (d : Document) (check : Check) (x : Except SettingsCause α) (a : α) :
    Prop where
  passes : check.Passes d → x = .ok a
  fails : ¬ check.Passes d → x = .error (check.cause d)

section Steps

variable {α β : Type} {d : Document} {check : Check} {checks : List Check} {good : β → Prop}
  {c : SettingsCause}

/-- A check that passes leaves it to the others. -/
@[simp] theorem refuses_of_passes (passes : check.Passes d) :
    Refuses d (check :: checks) c ↔ Refuses d checks c := by
  refine ⟨fun h => ?_, .later passes⟩
  cases h with
  | here fails => exact absurd passes fails
  | later _ after => exact after

/-- A check that fails decides. -/
@[simp] theorem refuses_of_fails (fails : ¬ check.Passes d) :
    Refuses d (check :: checks) c ↔ c = check.cause d := by
  constructor
  · intro h
    cases h with
    | here => rfl
    | later passes _ => exact absurd passes fails
  · rintro rfl
    exact .here fails

/-- What is refused does not pass all checks. -/
theorem Refuses.not_passes (h : Refuses d checks c) : ¬ ∀ check ∈ checks, check.Passes d := by
  induction h with
  | here fails => exact fun passes => fails (List.forall_mem_cons.mp passes).1
  | later _ _ ih => exact fun passes => ih (List.forall_mem_cons.mp passes).2

/-- Without a check there is nothing to refuse. -/
theorem checked_nil {x : β} (h : ∀ a, x = a ↔ good a) : Checked d [] (.ok x) good where
  ok_iff a := by
    rw [Except.ok.injEq, h a]
    exact ⟨fun ha => ⟨fun _ hmem => absurd hmem List.not_mem_nil, ha⟩, And.right⟩
  error_iff c := ⟨fun h => (by cases h), fun h => (by cases h)⟩

/-- A check that is passed is not met again. -/
theorem Checked.cons {x : Except SettingsCause β} (passes : check.Passes d)
    (h : Checked d checks x good) : Checked d (check :: checks) x good where
  ok_iff a := by rw [h.ok_iff a, List.forall_mem_cons, and_iff_right passes]
  error_iff c := by rw [h.error_iff c, refuses_of_passes passes]

/-- A check that is failed is the first one. -/
theorem checked_of_fails (fails : ¬ check.Passes d) :
    Checked d (check :: checks) (.error (check.cause d)) good where
  ok_iff a := ⟨fun h => (by cases h), fun h => absurd (List.forall_mem_cons.mp h.1).1 fails⟩
  error_iff c := by rw [refuses_of_fails fails, Except.error.injEq, eq_comm]

/-- **One check after another**, each with the value of the one before it. -/
theorem Decides.bind {x : Except SettingsCause α} {a : α} {f : α → Except SettingsCause β}
    (h : Decides d check x a) (after : check.Passes d → Checked d checks (f a) good) :
    Checked d (check :: checks) (x >>= f) good := by
  by_cases passes : check.Passes d
  · rw [h.passes passes]
    exact (after passes).cons passes
  · rw [h.fails passes]
    exact checked_of_fails passes

/-- A check that is a condition on values. -/
theorem checked_dite {p : Prop} [Decidable p] {f : p → Except SettingsCause β}
    (same : check.Passes d ↔ p) (after : ∀ h : p, Checked d checks (f h) good) :
    Checked d (check :: checks) (if h : p then f h else .error (check.cause d)) good := by
  by_cases h : p
  · rw [dif_pos h]
    exact (after h).cons (same.mpr h)
  · rw [dif_neg h]
    exact checked_of_fails fun passes => h (same.mp passes)

end Steps

/-! ## The checks of a document -/

/-- The table of a section that passes its check. -/
def tableOf (d : Document) (title : String) : Document :=
  match d.get? title with
  | some (.table entries) => .table entries
  | _ => .table []

/-- The integer of an entry that passes its check. -/
def integerOf (d : Document) (title key : String) (default : Int) : Int :=
  match entry? d title key with
  | some (.integer n) => n
  | _ => default

/-- The text of an entry that passes its check. -/
def textOf (d : Document) (title key default : String) : String :=
  match entry? d title key with
  | some (.text s) => s
  | _ => default

section Document

variable (d : Document) (title key : String)

/-- The version is checked. -/
theorem decides_version : Decides d .version (checkVersion d) () where
  passes h := by
    rw [checkVersion, show d.get? "version" = some (.integer 1) from h]
    rfl
  fails h := by
    rw [Check.cause, checkVersion]
    cases hv : d.get? "version" with
    | none => rfl
    | some v =>
      cases v with
      | integer n =>
        have hn : n ≠ version := by
          rintro rfl
          exact h hv
        exact if_neg hn
      | _ => rfl

/-- A section is checked to be a table. -/
theorem decides_section : Decides d (.table title) (section? d title) (tableOf d title) where
  passes h := by
    rcases h with h | h | ⟨entries, h⟩ <;> rw [section?, tableOf, h]
  fails h := by
    rw [Check.cause, section?]
    split
    · next hnone => exact absurd (.inl hnone) h
    · next hnull => exact absurd (.inr (.inl hnull)) h
    · next entries htable => exact absurd (.inr (.inr ⟨entries, htable⟩)) h
    · rfl

/-- An entry of a section is one of its table. -/
@[simp] theorem get?_tableOf : (tableOf d title).get? key = entry? d title key := by
  rw [tableOf, entry?]
  split
  · next entries htable => rw [htable, Option.bind_some]
  · next hother =>
    cases h : d.get? title with
    | none => rfl
    | some v =>
      cases v with
      | table entries => exact absurd h (hother entries)
      | _ => rfl

/-- An entry is checked to be an integer. -/
theorem decides_integer (default : Int) :
    Decides d (.integer title key) (integer? (tableOf d title) title key default)
      (integerOf d title key default) where
  passes h := by
    rw [integer?, get?_tableOf, integerOf]
    cases hentry : entry? d title key with
    | none => rfl
    | some v =>
      obtain ⟨n, rfl⟩ := h v hentry
      rfl
  fails h := by
    rw [integer?, get?_tableOf, Check.cause]
    cases hentry : entry? d title key with
    | none => exact absurd (fun v hv => by cases hentry.symm.trans hv) h
    | some v =>
      cases v with
      | integer n => exact absurd (fun v hv => ⟨n, (Option.some.inj (hentry.symm.trans hv)).symm⟩) h
      | _ => rfl

/-- Or to be a text. -/
theorem decides_text (default : String) :
    Decides d (.text title key) (text? (tableOf d title) title key default)
      (textOf d title key default) where
  passes h := by
    rw [text?, get?_tableOf, textOf]
    cases hentry : entry? d title key with
    | none => rfl
    | some v =>
      obtain ⟨s, rfl⟩ := h v hentry
      rfl
  fails h := by
    rw [text?, get?_tableOf, Check.cause]
    cases hentry : entry? d title key with
    | none => exact absurd (fun v hv => by cases hentry.symm.trans hv) h
    | some v =>
      cases v with
      | text s => exact absurd (fun v hv => ⟨s, (Option.some.inj (hentry.symm.trans hv)).symm⟩) h
      | _ => rfl

/-- A condition on an entry that is an integer, if the default meets it. -/
theorem forall_integer_iff {default : Int} {p : Int → Prop} (hdefault : p default) :
    (∀ n, entry? d title key = some (.integer n) → p n) ↔ p (integerOf d title key default) := by
  rw [integerOf]
  split
  · next n hentry =>
    refine ⟨fun h => h n hentry, fun h m hm => ?_⟩
    obtain rfl := Document.integer.inj (Option.some.inj (hentry.symm.trans hm))
    exact h
  · next hother => exact ⟨fun _ => hdefault, fun _ n hn => absurd hn (hother n)⟩

variable {d title key}

/-- A document states an integer when it is the one that is read. -/
theorem states_iff (passes : (Check.integer title key).Passes d) {default n : Int} :
    States d title key default n ↔ integerOf d title key default = n := by
  rw [States, integerOf]
  cases hentry : entry? d title key with
  | none => simp [eq_comm]
  | some v =>
    obtain ⟨m, rfl⟩ := passes v hentry
    simp

/-- The level that is stated is the one that the text names. -/
theorem statesLevel_iff (passes : (Check.text "log" "level").Passes d) {level : LogLevel} :
    ((∃ text, entry? d "log" "level" = some (.text text) ∧
        text.toList.map LogLevel.capital = level.name.toList) ∨
      entry? d "log" "level" = none ∧ level = .warning) ↔
    LogLevel.ofText? (textOf d "log" "level" "WARNING") = some level := by
  rw [textOf]
  cases hentry : entry? d "log" "level" with
  | none =>
    have hwarning : LogLevel.ofText? "WARNING" = some .warning := by decide
    simp [hwarning, eq_comm]
  | some v =>
    obtain ⟨s, rfl⟩ := passes v hentry
    simp [LogLevel.ofText?_eq_some_iff]

/-- The level passes when it is one of those that are known. -/
theorem passes_level_iff (passes : (Check.text "log" "level").Passes d) :
    Check.level.Passes d ↔
      ∃ level, LogLevel.ofText? (textOf d "log" "level" "WARNING") = some level := by
  rw [Check.Passes, textOf]
  cases hentry : entry? d "log" "level" with
  | none =>
    have hwarning : LogLevel.ofText? "WARNING" = some .warning := by decide
    simp [hwarning]
  | some v =>
    obtain ⟨s, rfl⟩ := passes v hentry
    simp [LogLevel.ofText?_eq_some_iff]

/-- **The checks of values**, after those of the entries. -/
theorem checked_ofValues (depth : (Check.integer "limits" "max_depth").Passes d)
    (length : (Check.integer "limits" "max_length").Passes d)
    (precision : (Check.integer "output" "precision").Passes d)
    (level : (Check.text "log" "level").Passes d) :
    Checked d [.limits, .precision, .level]
      (ofValues (integerOf d "limits" "max_depth" 256) (integerOf d "limits" "max_length" 10000)
        (integerOf d "output" "precision" 17) (textOf d "log" "level" "WARNING"))
      (StatedBy d) := by
  have hlimits : Check.limits.Passes d ↔ 1 ≤ integerOf d "limits" "max_depth" 256 ∧
      1 ≤ integerOf d "limits" "max_length" 10000 :=
    and_congr (forall_integer_iff _ _ _ (by decide)) (forall_integer_iff _ _ _ (by decide))
  have hprecision : Check.precision.Passes d ↔ 1 ≤ integerOf d "output" "precision" 17 ∧
      integerOf d "output" "precision" 17 ≤ 17 :=
    forall_integer_iff (p := fun n => 1 ≤ n ∧ n ≤ 17) _ _ _ (by decide)
  refine checked_dite hlimits fun hl => checked_dite hprecision fun hp => ?_
  have hlevel := passes_level_iff level
  cases htext : LogLevel.ofText? (textOf d "log" "level" "WARNING") with
  | none => exact checked_of_fails fun h => by cases htext.symm.trans (hlevel.mp h).choose_spec
  | some found =>
    refine (checked_nil fun s => ?_).cons (hlevel.mpr ⟨found, htext⟩)
    have hfound : ∀ l, LogLevel.ofText? (textOf d "log" "level" "WARNING") = some l ↔ found = l := by
      intro l
      rw [htext, Option.some.injEq]
    obtain ⟨⟨maxDepth, maxLength⟩, digits, level', _, _⟩ := s
    constructor
    · rintro ⟨⟩
      exact ⟨(states_iff depth).mpr rfl, (states_iff length).mpr rfl,
        (states_iff precision).mpr (Int.toNat_of_nonneg (by omega)).symm,
        (statesLevel_iff level).mpr htext⟩
    · intro hs
      obtain rfl := (states_iff depth).mp hs.maxDepth
      obtain rfl := (states_iff length).mp hs.maxLength
      have hdigits := (states_iff precision).mp hs.precision
      obtain rfl := (hfound _).mp ((statesLevel_iff level).mp hs.level)
      obtain rfl : (integerOf d "output" "precision" 17).toNat = digits := by
        rw [hdigits]
        rfl
      rfl

/-- The settings of a document **go through all checks**. -/
theorem checked_ofDocument (d : Document) : Checked d Check.all (ofDocument d) (StatedBy d) := by
  refine (decides_version d).bind fun _ => ?_
  refine (decides_section d "limits").bind fun _ => ?_
  refine (decides_section d "output").bind fun _ => ?_
  refine (decides_section d "log").bind fun _ => ?_
  refine (decides_integer d "limits" "max_depth" 256).bind fun depth => ?_
  refine (decides_integer d "limits" "max_length" 10000).bind fun length => ?_
  refine (decides_integer d "output" "precision" 17).bind fun precision => ?_
  refine (decides_text d "log" "level" "WARNING").bind fun level => ?_
  exact checked_ofValues depth length precision level

end Document

/-! ## What nothing depends on -/

/-- Documents **agree** on what is checked: on the version, on which sections are in order, and on the
entries that have a meaning. -/
structure Agree (d d' : Document) : Prop where
  version : d.get? "version" = d'.get? "version"
  sections : ∀ title ∈ ["limits", "output", "log"],
    ((Check.table title).Passes d ↔ (Check.table title).Passes d')
  maxDepth : entry? d "limits" "max_depth" = entry? d' "limits" "max_depth"
  maxLength : entry? d "limits" "max_length" = entry? d' "limits" "max_length"
  precision : entry? d "output" "precision" = entry? d' "output" "precision"
  level : entry? d "log" "level" = entry? d' "log" "level"

namespace Agree

variable {d d' : Document}

/-- Documents that agree pass the same checks, and are at fault in the same way otherwise. -/
theorem check (h : Agree d d') :
    ∀ check ∈ Check.all, (check.Passes d ↔ check.Passes d') ∧ check.cause d = check.cause d' := by
  simp only [Check.all, List.forall_mem_cons, Check.Passes, Check.cause, h.version, h.maxDepth,
    h.maxLength, h.precision, h.level, and_self, true_and, List.not_mem_nil, false_implies,
    implies_true, and_true]
  exact ⟨h.sections "limits" (by decide), h.sections "output" (by decide), h.sections "log" (by decide)⟩

/-- Documents that agree are refused for the same cause. -/
theorem refuses {checks : List Check} {c : SettingsCause}
    (same : ∀ check ∈ checks, (check.Passes d ↔ check.Passes d') ∧ check.cause d = check.cause d')
    (h : Refuses d checks c) : Refuses d' checks c := by
  induction h with
  | @here check checks fails =>
    obtain ⟨hpasses, hcause⟩ := same check (List.mem_cons_self ..)
    rw [hcause]
    exact .here fun passes => fails (hpasses.mpr passes)
  | @later check checks c passes _ ih =>
    obtain ⟨hpasses, -⟩ := same check (List.mem_cons_self ..)
    exact .later (hpasses.mp passes) (ih fun other hother => same other (List.mem_cons_of_mem _ hother))

/-- And they state the same settings. -/
theorem statedBy (h : Agree d d') {s : Settings} (hs : StatedBy d s) : StatedBy d' s where
  maxDepth := by
    rw [States, ← h.maxDepth]
    exact hs.maxDepth
  maxLength := by
    rw [States, ← h.maxLength]
    exact hs.maxLength
  precision := by
    rw [States, ← h.precision]
    exact hs.precision
  level := by
    rw [← h.level]
    exact hs.level

/-- **Documents that agree** have the same settings, or the same is wrong with them. -/
theorem ofDocument_eq (h : Agree d d') : ofDocument d = ofDocument d' := by
  have hd := checked_ofDocument d
  have hd' := checked_ofDocument d'
  cases hresult : ofDocument d with
  | ok s =>
    obtain ⟨hpasses, hs⟩ := (hd.ok_iff s).mp hresult
    have hpasses' : ∀ check ∈ Check.all, check.Passes d' :=
      fun check hmem => (h.check check hmem).1.mp (hpasses check hmem)
    exact ((hd'.ok_iff s).mpr ⟨hpasses', h.statedBy hs⟩).symm
  | error c => exact ((hd'.error_iff c).mpr (refuses h.check ((hd.error_iff c).mp hresult))).symm

end Agree

/-! ## The settings in a document -/

/-- A document **states an overlong version**: one with so many digits that it cannot be written. -/
def StatesOverlong (d : Document) : Prop :=
  ∃ n, d.get? "version" = some (.integer n) ∧ isOverlong n = true

/-- Settings that are loaded are those of the document. -/
@[simp] theorem load_eq_ok_iff {d : Document} {s : Settings} : load d = .ok s ↔ ofDocument d = .ok s := by
  rw [load]
  cases ofDocument d with
  | ok s' =>
    constructor <;> rintro ⟨⟩ <;> rfl
  | error c => exact ⟨fun h => (by cases h), fun h => (by cases h)⟩

/-- A cause that is reported is that of the document. -/
theorem ofDocument_of_load {d : Document} {c : SettingsCause} (h : load d = .error (.cause c)) :
    ofDocument d = .error c := by
  rw [load] at h
  cases hd : ofDocument d with
  | ok s =>
    rw [hd] at h
    cases h
  | error found =>
    rw [hd] at h
    have hfound : LoadFailure.ofCause found = .cause c := Except.error.inj h
    unfold LoadFailure.ofCause at hfound
    split at hfound
    · split at hfound
      · cases hfound
      · rw [LoadFailure.cause.inj hfound]
    · rw [LoadFailure.cause.inj hfound]

/-- The settings, or what is wrong, unless an overlong version is stated. -/
theorem load_total (d : Document) :
    ((∃ s, load d = .ok s) ∨ ∃ c, load d = .error (.cause c)) ∧ ¬ StatesOverlong d ∨
      load d = .error (.excess .digitsWritten) ∧ StatesOverlong d := by
  rcases load_cases d with ⟨hloads, hshort⟩ | hlong
  · refine .inl ⟨hloads, ?_⟩
    rintro ⟨n, hversion, hn⟩
    rw [hshort n hversion] at hn
    cases hn
  · exact .inr hlong

/-- And every cause is reported, but for one that cannot be written. -/
@[simp] theorem load_eq_cause_iff {d : Document} {c : SettingsCause} :
    load d = .error (.cause c) ↔ ofDocument d = .error c ∧ ¬ StatesOverlong d := by
  constructor
  · intro h
    refine ⟨ofDocument_of_load h, ?_⟩
    rcases load_total d with ⟨-, hshort⟩ | ⟨hexcess, -⟩
    · exact hshort
    · cases h.symm.trans hexcess
  · rintro ⟨hd, hshort⟩
    rcases load_total d with ⟨⟨s, hs⟩ | ⟨found, hfound⟩, -⟩ | ⟨-, hlong⟩
    · cases hd.symm.trans (load_eq_ok_iff.mp hs)
    · rw [hfound, Except.error.inj (hd.symm.trans (ofDocument_of_load hfound))]
    · exact absurd hlong hshort

/-- **Nothing else goes wrong**. -/
@[simp] theorem load_eq_excess_iff {d : Document} :
    load d = .error (.excess .digitsWritten) ↔ StatesOverlong d := by
  rcases load_total d with ⟨⟨s, hs⟩ | ⟨c, hc⟩, hshort⟩ | ⟨hexcess, hlong⟩
  · exact ⟨fun h => (by cases hs.symm.trans h), fun h => absurd h hshort⟩
  · exact ⟨fun h => (by cases hc.symm.trans h), fun h => absurd h hshort⟩
  · exact ⟨fun _ => hlong, fun _ => hexcess⟩

/-- **The settings in a document.** There are settings exactly when the document passes all checks, and
they are what it states. Otherwise the first check that it fails says what is wrong with it, unless the
version has too many digits to be written. Nothing but what is checked matters. -/
theorem load_checks (d : Document) :
    (∀ s, load d = .ok s ↔ (∀ check ∈ Check.all, check.Passes d) ∧ StatedBy d s) ∧
    ((∃ s, load d = .ok s) ↔ ∀ check ∈ Check.all, check.Passes d) ∧
    (∀ c, load d = .error (.cause c) ↔ Refuses d Check.all c ∧ ¬ StatesOverlong d) ∧
    ((∃ c, load d = .error (.cause c)) ↔
      ¬ (∀ check ∈ Check.all, check.Passes d) ∧ ¬ StatesOverlong d) ∧
    (load d = .error (.excess .digitsWritten) ↔ StatesOverlong d) ∧
    ∀ d', Agree d d' → load d = load d' := by
  have hchecked := checked_ofDocument d
  have hok : ∀ s, load d = .ok s ↔ (∀ check ∈ Check.all, check.Passes d) ∧ StatedBy d s :=
    fun s => load_eq_ok_iff.trans (hchecked.ok_iff s)
  have hcause : ∀ c, load d = .error (.cause c) ↔ Refuses d Check.all c ∧ ¬ StatesOverlong d :=
    fun c => load_eq_cause_iff.trans (and_congr_left' (hchecked.error_iff c))
  have hsome : (∃ s, load d = .ok s) ↔ ∀ check ∈ Check.all, check.Passes d := by
    constructor
    · rintro ⟨s, hs⟩
      exact ((hok s).mp hs).1
    · intro hpasses
      cases hd : ofDocument d with
      | ok s => exact ⟨s, load_eq_ok_iff.mpr hd⟩
      | error c => exact absurd hpasses ((hchecked.error_iff c).mp hd).not_passes
  refine ⟨hok, hsome, hcause, ?_, load_eq_excess_iff, fun d' h => ?_⟩
  · constructor
    · rintro ⟨c, hc⟩
      obtain ⟨hrefuses, hshort⟩ := (hcause c).mp hc
      exact ⟨hrefuses.not_passes, hshort⟩
    · rintro ⟨hfails, hshort⟩
      rcases load_total d with ⟨hs | hc, -⟩ | ⟨-, hlong⟩
      · exact absurd (hsome.mp hs) hfails
      · exact hc
      · exact absurd hlong hshort
  · rw [load, load, h.ofDocument_eq]

/-- A document that states a depth and a level. -/
def plainDocument : Document :=
  .table [("version", .integer 1), ("limits", .table [("max_depth", .integer 12)]),
    ("log", .table [("level", .text "debug")])]

/-- The same in another order, with other entries besides and a section that is null. -/
def crowdedDocument : Document :=
  .table [("colour", .text "red"), ("output", .null),
    ("limits", .table [("min_depth", .null), ("max_depth", .integer 12)]),
    ("log", .table [("level", .text "debug"), ("file", .boolean true)]), ("version", .integer 1)]

/-- Entries that are not looked at change nothing. -/
theorem load_checks_plain_crowded :
    Agree plainDocument crowdedDocument ∧ load plainDocument = load crowdedDocument ∧
      ∃ s, load plainDocument = .ok s ∧ s.limits.maxDepth = 12 ∧ s.level = .debug := by
  have hagree : Agree plainDocument crowdedDocument := by
    refine ⟨rfl, ?_, rfl, rfl, rfl, rfl⟩
    simp only [List.forall_mem_cons, List.not_mem_nil, false_implies, implies_true, and_true]
    exact ⟨⟨fun _ => .inr (.inr ⟨_, rfl⟩), fun _ => .inr (.inr ⟨_, rfl⟩)⟩,
      ⟨fun _ => .inr (.inl rfl), fun _ => .inl rfl⟩,
      ⟨fun _ => .inr (.inr ⟨_, rfl⟩), fun _ => .inr (.inr ⟨_, rfl⟩)⟩⟩
  exact ⟨hagree, (load_checks plainDocument).2.2.2.2.2 crowdedDocument hagree, _, rfl, rfl, rfl⟩

/-- A document that states a version of four thousand hexadecimal digits, and nothing else. -/
def overlongDocument : Document := .table [("version", .integer (Nat.pow 16 4000 - 1 : Nat))]

/-- The version is the first thing that is wrong, but the answer does not say that anything is. -/
theorem load_overlongDocument :
    Refuses overlongDocument Check.all (.unsupportedVersion (Nat.pow 16 4000 - 1 : Nat)) ∧
      ∀ c, load overlongDocument ≠ .error (.cause c) := by
  have hlong : isOverlong (Nat.pow 16 4000 - 1 : Nat) = true := by decide +kernel
  have hversion : overlongDocument.get? "version" = some (.integer (Nat.pow 16 4000 - 1 : Nat)) := rfl
  constructor
  · have hrefused := ofDocument_of_version hversion (ne_version_of_isOverlong hlong)
    exact ((checked_ofDocument _).error_iff _).mp hrefused
  · intro c hc
    exact (load_eq_cause_iff.mp hc).2 ⟨_, hversion, hlong⟩

end Settings

end Reckoner
