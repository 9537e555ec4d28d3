import Reckoner.Console.Response
import Reckoner.Elementary.Library

/-! # The command line

* **`filesFor`** — the files that a request may need.
* **`main`** — reads those files, and writes the response to the arguments. -/

namespace Reckoner

namespace Console

/-- The paths that a request may ask about: the file that is named, or the settings file in the
given folder or in any folder above the current one. -/
def filesFor (current : Path) : Request → List Path
  | .expression _ options _ =>
    let folders :=
      if options.root = "" then current.ancestors else [(Path.ofText current options.root).resolved]
    let named := if options.config = "" then [] else [(Path.ofText current options.config).resolved]
    named ++ folders.map fun folder => folder.child settingsFile
  | .serve root => if root = "" then [] else [(Path.ofText current root).resolved]

/-- A tree with what is found at a path. What exists and cannot be read counts as a folder. -/
def probe (t : FileTree) (p : Path) : IO FileTree := do
  try
    return t.insertFile p (← IO.FS.readBinFile p.text)
  catch
    | .noFileOrDirectory .. => return t
    | _ => return t.insertFolder p

/-- The tree with everything that a request may ask about. -/
def snapshot (current : Path) : Except Stop Request → IO FileTree
  | .error _ => return .empty
  | .ok request => (filesFor current request).foldlM probe .empty

/-- Writes a response and gives its exit code. -/
def writeResponse : Except Interruption Response → IO UInt32
  | .ok r => do
    IO.print r.output
    IO.eprint r.errors
    return r.code.toUInt32
  | .error e => do
    IO.eprintln e.message
    return 1

end Console

end Reckoner

/-- Answers the arguments of the command line in the current folder. -/
def main (arguments : List String) : IO UInt32 := do
  let current := Reckoner.Path.ofText .root (← IO.currentDir).toString
  let tree ← Reckoner.Console.snapshot current (Reckoner.Console.Request.ofArguments arguments)
  Reckoner.Console.writeResponse (Reckoner.Console.respond .plain tree current arguments)
