import Reckoner.Console.Response
import Reckoner.Json.Reader

/-! # Tools for other programs

The commands as tools that always answer with JSON.

* **`toolArguments`** — the command line for a tool.
* **`enclose`** — the output of a command if it is JSON, and a table that says that it failed
  otherwise.
* **`respondJson`, `useTool`** — the JSON for a command line and for a tool. -/

namespace Reckoner

namespace Console

/-- The command line for a command on an expression, which is not taken for an option whatever it
begins with. -/
def toolArguments (command : Command) (expression : String) (root : Option String) : List String :=
  let place := match root with
    | some r => if r = "" then [] else ["--root", r]
    | none => []
  [command.name, "--json"] ++ place ++ ["--", expression]

/-- The JSON that says that a command failed. -/
def failureJson (name reason : String) : String :=
  Json.compact (.table [("command", .text name), ("ok", .boolean false), ("error", .text reason)])

/-- How many characters of an output that is not JSON are passed on. -/
def excerptLength : Nat := 500

/-- The output of a command as JSON. -/
def enclose (name output : String) : String :=
  let text := trimBlank output.toList
  if text.isEmpty then failureJson name "command produced no output"
  else if (Json.read? (String.ofList text)).isSome then String.ofList text
  else failureJson name (String.ofList (text.take excerptLength))

/-- The **JSON for a command line**. -/
def respondJson [Numerics] (w : Wording) (t : FileTree) (current : Path) (arguments : List String) :
    Except Interruption String :=
  (respond w t current arguments).map fun r => enclose (arguments.headD "unknown") r.output

/-- The **answer of a tool**: what a command finds out about an expression, as JSON. -/
def useTool [Numerics] (w : Wording) (t : FileTree) (current : Path) (command : Command)
    (expression : String) (root : Option String) : Except Interruption String :=
  respondJson w t current (toolArguments command expression root)

end Console

end Reckoner
