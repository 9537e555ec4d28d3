import Reckoner.Files.Path
import Reckoner.Text.Quoted

/-! # File trees

The files and folders that can be read.

* **`FileTree`** — a file with its content, or a folder. There are no links in it, and everything in it
  may be read.
* **`FileTree.reachFrom`, `FileTree.reach`** — what is found at a route from the current folder, and at a
  path.
* **`FileTree.insertFile`, `FileTree.insertFolder`** — a tree with one more file or folder.
* **`PathFault`** — why a path cannot be used.
* **`FileTree.isFile`, `FileTree.checkFolder`** — whether a path leads to a file, or to a folder.
* **`Path.resolve`** — a path without steps back.
* **`FileSystem`** — what a file system answers, whatever it is.
* **`FileTree.system`** — the file system of a tree. -/

namespace Reckoner

/-- A **file tree**. -/
inductive FileTree where
  | file (content : ByteArray)
  | folder (entries : List (String × FileTree))

/-- What is found at a path. -/
inductive Reach where
  | file (content : ByteArray)
  | folder
  /-- There is nothing of that name. -/
  | missing
  /-- A file stands where a folder is needed. -/
  | blocked
  /-- A name, or the whole path, is longer than allowed. -/
  | tooLong
  /-- The path holds a null character. -/
  | malformed

/-- How many bytes a name may have. -/
def maxNameBytes : Nat := 255

/-- How many bytes the text of a path may have. -/
def maxPathBytes : Nat := 4095

/-- Whether a text holds the null character. -/
def holdsNull (s : String) : Bool := s.toList.contains '\x00'

namespace FileTree

/-- The tree without any file. -/
def empty : FileTree := .folder []

/-- What is found by following names from a place with the given folders above it, the nearest
first. -/
def walk : List FileTree → FileTree → List String → Reach
  | _, .file content, [] => .file content
  | _, .folder _, [] => .folder
  | _, .file _, _ :: _ => .blocked
  | above, .folder entries, name :: rest =>
    if name = ".." then
      match above with
      | [] => walk [] (.folder entries) rest
      | up :: above => walk above up rest
    else if maxNameBytes < name.utf8ByteSize then .tooLong
    else
      match entries.lookup name with
      | some next => walk (.folder entries :: above) next rest
      | none => .missing

/-- **What is found at a route** from the current folder. The text of the route must not be too long. -/
def reachFrom (t : FileTree) (current : Path) (r : Route) : Reach :=
  if (r.path current).names.any holdsNull then .malformed
  else if maxPathBytes < r.text.utf8ByteSize then .tooLong
  else walk [] t (r.path current).names

/-- **What is found at a path.** -/
def reach (t : FileTree) (p : Path) : Reach := t.reachFrom .root p.route

/-- Entries with the one of a name replaced or added. -/
def putEntry (name : String) (t : FileTree) : List (String × FileTree) → List (String × FileTree)
  | [] => [(name, t)]
  | (n, old) :: rest => if n = name then (n, t) :: rest else (n, old) :: putEntry name t rest

/-- The tree with another tree at the end of the given names; folders on the way are made. A folder
that is there already stays as it is, and so does everything below a file. -/
def insertAt (new : FileTree) : List String → FileTree → FileTree
  | [], .folder entries =>
    match new with
    | .folder _ => .folder entries
    | .file _ => new
  | [], .file _ => new
  | _ :: _, .file content => .file content
  | name :: rest, .folder entries =>
    .folder (putEntry name (insertAt new rest ((entries.lookup name).getD empty)) entries)

/-- The tree with a file at a path. -/
def insertFile (t : FileTree) (p : Path) (content : ByteArray) : FileTree :=
  insertAt (.file content) p.names t

/-- The tree with a folder at a path. -/
def insertFolder (t : FileTree) (p : Path) : FileTree := insertAt empty p.names t

end FileTree

/-- Why a path cannot be used. -/
inductive PathFault where
  /-- A name, or the whole route, is longer than allowed. -/
  | tooLong (route : Route)
  /-- The path holds a null character. -/
  | malformed
  /-- There is nothing at the path. -/
  | missing (path : Path)
  /-- A file stands where a folder is needed. -/
  | notFolder (path : Path)
  deriving DecidableEq, Repr

/-- The text that says why a path cannot be used, after the number of the error where it has one. -/
def PathFault.message : PathFault → String
  | .tooLong route => "[Errno 36] File name too long: " ++ quoted route.text
  | .malformed => "embedded null byte"
  | .missing path => "[Errno 2] No such file or directory: " ++ quoted path.text
  | .notFolder path => "[Errno 20] Not a directory: " ++ quoted path.text

/-- Whether a route from the current folder leads to a file. -/
def FileTree.isFileFrom (t : FileTree) (current : Path) (r : Route) : Except PathFault Bool :=
  match t.reachFrom current r with
  | .file _ => .ok true
  | .tooLong => .error (.tooLong r)
  | _ => .ok false

/-- Whether a path leads to a file. -/
def FileTree.isFile (t : FileTree) (p : Path) : Except PathFault Bool := t.isFileFrom .root p.route

/-- Refuses a path that does not lead to a folder. -/
def FileTree.checkFolder (t : FileTree) (p : Path) : Except PathFault Unit :=
  match t.reach p with
  | .folder => .ok ()
  | .missing => .error (.missing p)
  | .tooLong => .error (.tooLong p.route)
  | .malformed => .error .malformed
  | _ => .error (.notFolder p)

/-- The path without steps back; a path with a null character is refused. -/
def Path.resolve (p : Path) : Except PathFault Path :=
  if p.names.any holdsNull then .error .malformed else .ok p.resolved

/-! ## File systems -/

/-- What a **file system** answers, with whatever links and permissions there are. Every question is
answered, or fails. -/
structure FileSystem (ε : Type) where
  /-- Whether a route leads to a file. -/
  isFile : Route → Except ε Bool
  /-- The path that a route stands for, without links and steps back. -/
  resolve : Route → Except ε Path

/-- The **file system of a tree**, with a current folder. -/
def FileTree.system (t : FileTree) (current : Path) : FileSystem PathFault where
  isFile := t.isFileFrom current
  resolve := fun r => (r.path current).resolve

end Reckoner
