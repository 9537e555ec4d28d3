import Reckoner.Document
import Reckoner.Evaluate

/-! # Settings

How much an expression may hold, how values are shown, and how much is logged.

* **`LogLevel`** — how grave a message must be to be logged.
* **`Settings`** — all settings, with the bounds that they keep.
* **`Settings.ofDocument`** — the settings that a document states. What it does not state has its
  default value, and entries of other names are passed over. -/

namespace Reckoner

/-- How grave a message must be to be logged. -/
inductive LogLevel where
  | debug
  | info
  | warning
  | error
  | critical
  deriving DecidableEq, Repr

namespace LogLevel

/-- All levels, the least grave first. -/
def all : List LogLevel := [.debug, .info, .warning, .error, .critical]

/-- The name of a level. -/
def name : LogLevel → String
  | .debug => "DEBUG"
  | .info => "INFO"
  | .warning => "WARNING"
  | .error => "ERROR"
  | .critical => "CRITICAL"

/-- The gravity of a level as a number. -/
def number : LogLevel → Nat
  | .debug => 10
  | .info => 20
  | .warning => 30
  | .error => 40
  | .critical => 50

/-- The capital of a letter, as far as the names of levels need it: besides the small ASCII letters,
the dotless `ı` is the only letter whose capital occurs in them. -/
def capital (c : Char) : Char := if c = 'ı' then 'I' else c.toUpper

/-- The level that a text names in any case. -/
def ofText? (s : String) : Option LogLevel :=
  let letters := s.toList.map capital
  all.find? fun level => level.name.toList = letters

end LogLevel

/-- The **settings**. -/
structure Settings where
  /-- How large an expression may be. -/
  limits : Limits := {}
  /-- How many significant digits are shown; seventeen stand for as many as are needed. -/
  precision : Nat := 17
  /-- How grave a message must be to be logged. -/
  level : LogLevel := .warning
  /-- A bracket and a character are always allowed. -/
  limits_pos : 1 ≤ limits.maxDepth ∧ 1 ≤ limits.maxLength := by decide
  /-- Between one and seventeen digits are shown. -/
  precision_mem : 1 ≤ precision ∧ precision ≤ 17 := by decide

namespace Settings

/-- The version that documents must state. -/
def version : Int := 1

/-- The integer that a value is. -/
def asInteger (name : String) : Document → Except SettingsCause Int
  | .integer n => .ok n
  | _ => .error (.notInteger name)

/-- The text that a value is. -/
def asText (name : String) : Document → Except SettingsCause String
  | .text s => .ok s
  | _ => .error (.notString name)

/-- The table of a section. A section that is absent or null is empty. -/
def section? (d : Document) (name : String) : Except SettingsCause Document :=
  match d.get? name with
  | none => .ok (.table [])
  | some .null => .ok (.table [])
  | some (.table entries) => .ok (.table entries)
  | some _ => .error (.notTable name)

/-- The integer under a key of a section, or its default. -/
def integer? (table : Document) (title key : String) (default : Int) :
    Except SettingsCause Int :=
  match table.get? key with
  | none => .ok default
  | some d => asInteger (title ++ "." ++ key) d

/-- The text under a key of a section, or its default. -/
def text? (table : Document) (title key default : String) : Except SettingsCause String :=
  match table.get? key with
  | none => .ok default
  | some d => asText (title ++ "." ++ key) d

/-- Refuses a document that does not state the version. -/
def checkVersion (d : Document) : Except SettingsCause Unit :=
  match d.get? "version" with
  | none => .error .missingVersion
  | some .null => .error .missingVersion
  | some v =>
    (asInteger "version" v).bind fun n =>
      if n = version then .ok () else .error (.unsupportedVersion n)

/-- Settings within their bounds. -/
def ofValues (maxDepth maxLength precision : Int) (level : String) :
    Except SettingsCause Settings :=
  if hl : 1 ≤ maxDepth ∧ 1 ≤ maxLength then
    if hp : 1 ≤ precision ∧ precision ≤ 17 then
      match LogLevel.ofText? level with
      | some level =>
        .ok ⟨⟨maxDepth, maxLength⟩, precision.toNat, level, hl, by omega⟩
      | none => .error .unknownLevel
    else .error .precisionOutOfRange
  else .error .limitTooSmall

/-- The **settings that a document states**, or the first thing wrong with it: the version, then the
sections, then their entries, then the bounds. -/
def ofDocument (d : Document) : Except SettingsCause Settings := do
  checkVersion d
  let limits ← section? d "limits"
  let output ← section? d "output"
  let log ← section? d "log"
  let maxDepth ← integer? limits "limits" "max_depth" ({} : Limits).maxDepth
  let maxLength ← integer? limits "limits" "max_length" ({} : Limits).maxLength
  let precision ← integer? output "output" "precision" 17
  let level ← text? log "log" "level" "WARNING"
  ofValues maxDepth maxLength precision level

end Settings

end Reckoner
