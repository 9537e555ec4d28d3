import Reckoner.Files.Tree
import Reckoner.Settings
import Reckoner.Toml.Reader
import Reckoner.Wording

/-! # Finding and loading settings

Settings are read from a file. It is named, or looked for in a given folder, or looked for in the
current folder and those above it; without a file all settings have their default values.

* **`settingsFile`** — the name of the file that is looked for.
* **`findSettings`** — the nearest settings file at or above a place.
* **`readSettings`** — the settings in a file.
* **`loadSettings`** — the settings that are in force. -/

namespace Reckoner

/-- The name of the settings file. -/
def settingsFile : String := "shunt.toml"

section Searching

variable {ε : Type} (s : FileSystem ε)

/-- The first of some folders that holds a settings file; the path of that file. -/
def firstSettings : List Path → Except ε (Option Path)
  | [] => .ok none
  | folder :: rest =>
    match s.isFile (folder.child settingsFile).route with
    | .error e => .error e
    | .ok true => .ok (some (folder.child settingsFile))
    | .ok false => firstSettings rest

/-- The folder where the search from a place begins: the folder of a file, and of a place that cannot be
asked about; otherwise the place itself. -/
def searchFolder (start : Route) : Route :=
  match s.isFile start with
  | .ok false => start
  | _ => start.parent

/-- The **nearest settings file** at or above a place. A folder of that name is passed over. -/
def findSettings (start : Route) : Except ε (Option Path) :=
  (s.resolve (searchFolder s start)).bind fun folder => firstSettings s folder.ancestors

end Searching

/-- Why settings cannot be loaded. -/
inductive LoadFailure where
  /-- The file cannot be used. -/
  | cause (cause : SettingsCause)
  /-- The file cannot even be looked for. -/
  | path (fault : PathFault)
  /-- Something in the file is too large. -/
  | excess (excess : Excess)
  deriving DecidableEq, Repr

/-- A cause as a failure. The version that a file states is written into the message, unless it is
too large for that. -/
def LoadFailure.ofCause : SettingsCause → LoadFailure
  | .unsupportedVersion n =>
    if isOverlong n then .excess .digitsWritten else .cause (.unsupportedVersion n)
  | c => .cause c

/-- The settings in the content of a file. -/
def settingsIn (w : Wording) (path : Path) (content : ByteArray) : Except LoadFailure Settings :=
  match String.fromUTF8? content with
  | none => .error (.cause (.notUtf8 path.text))
  | some text =>
    match Toml.read text with
    | .error .malformed => .error (.cause (.notToml path.text (w.notToml text)))
    | .error (.excess e) => .error (.excess e)
    | .ok document => (Settings.ofDocument document).mapError .ofCause

/-- The settings in a file. -/
def readSettings (w : Wording) (t : FileTree) (path : Path) : Except LoadFailure Settings :=
  match t.reach path with
  | .file content => settingsIn w path content
  | .missing => .error (.cause (.missingFile path.text))
  | .malformed => .error (.path .malformed)
  | _ => .error (.cause (.unreadableFile path.text))

/-- The settings file that applies: the one that is named, or else the one in the given folder if there is
one there, or else the nearest one to the current folder. What is named or given is an absolute path. -/
def chooseSettings (t : FileTree) (current : Path) (folder file : Option Path) :
    Except PathFault (Option Path) :=
  match file, folder with
  | some path, _ => .ok (some path)
  | none, some folder =>
    (t.isFile (folder.child settingsFile)).map fun found =>
      if found then some (folder.child settingsFile) else none
  | none, none => findSettings (t.system current) current.route

/-- The **settings in force**: those of the file that applies, and the defaults without one. -/
def loadSettings (w : Wording) (t : FileTree) (current : Path) (folder file : Option Path) :
    Except LoadFailure Settings :=
  match chooseSettings t current folder file with
  | .error e => .error (.path e)
  | .ok none => .ok {}
  | .ok (some path) => readSettings w t path

end Reckoner
