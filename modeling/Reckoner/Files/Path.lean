/-! # Paths

Where a file is, counted from the root of the file system, and how that is written.

* **`Path`** — the names on the way to a file.
* **`Path.text`** — the text of a path.
* **`Path.resolved`** — a path without steps back.
* **`Path.ancestors`** — a path and what lies above it, the deepest first.
* **`Route`** — a path as it is written, from the root or from the current folder.
* **`Route.ofText`, `Route.text`** — the route that a text stands for, and the text of a route.
* **`Route.path`** — the path that a route stands for in a folder.
* **`Path.ofText`** — the path that a text stands for in a folder. -/

namespace Reckoner

/-- A **path**: the names from the root on. The name `..` is a step back. -/
structure Path where
  /-- The names, the outermost first. -/
  names : List String
  deriving DecidableEq, Repr

namespace Path

/-- The root. -/
def root : Path := ⟨[]⟩

/-- The path one name further. -/
def child (p : Path) (name : String) : Path := ⟨p.names ++ [name]⟩

/-- The text of a path. -/
def text (p : Path) : String := "/" ++ "/".intercalate p.names

/-- The names in a text: what stands between slashes, without empty names and points. -/
def namesIn (s : String) : List String :=
  (s.splitOn "/").filter fun name => name ≠ "" ∧ name ≠ "."

/-- The names on the way, the deepest first, after one more step. -/
def step (above : List String) (name : String) : List String :=
  if name = ".." then above.tail else name :: above

/-- The path without steps back: each takes back the step before it, and at the root nothing. -/
def resolved (p : Path) : Path := ⟨(p.names.foldl step []).reverse⟩

/-- The names of a path and of what lies above it, for names with the deepest first. -/
def ancestorsOf : List String → List Path
  | [] => [root]
  | name :: above => ⟨(name :: above).reverse⟩ :: ancestorsOf above

/-- A path and what lies above it, the deepest first and the root last. -/
def ancestors (p : Path) : List Path := ancestorsOf p.names.reverse

end Path

/-! ## Routes -/

/-- Where a route begins. -/
inductive Anchor where
  /-- In the current folder. -/
  | current
  /-- At the root. -/
  | root
  /-- At the root, written with two slashes. -/
  | doubleSlash
  deriving DecidableEq, Repr

namespace Anchor

/-- Where a text begins; more than two slashes count as one. -/
def ofChars : List Char → Anchor
  | '/' :: '/' :: '/' :: _ => .root
  | '/' :: '/' :: _ => .doubleSlash
  | '/' :: _ => .root
  | _ => .current

/-- The names on the way to where a route begins. -/
def names (current : Path) : Anchor → List String
  | .current => current.names
  | .root => []
  | .doubleSlash => []

end Anchor

/-- A **route**: a path as it is written. What is asked about a route is asked with its own text, and not
with the text of the path that it stands for. -/
structure Route where
  /-- Where the route begins. -/
  anchor : Anchor
  /-- The names from there on, the outermost first. -/
  names : List String
  deriving DecidableEq, Repr

namespace Route

/-- The route that a text stands for. -/
def ofText (s : String) : Route := ⟨Anchor.ofChars s.toList, Path.namesIn s⟩

/-- The text of a route. The current folder is written as a point. -/
def text (r : Route) : String :=
  match r.anchor with
  | .current => if r.names = [] then "." else "/".intercalate r.names
  | .root => "/" ++ "/".intercalate r.names
  | .doubleSlash => "//" ++ "/".intercalate r.names

/-- The route some names further. -/
def extend (r : Route) (names : List String) : Route := ⟨r.anchor, r.names ++ names⟩

/-- The route without its last name; where it begins it stays. -/
def parent (r : Route) : Route := ⟨r.anchor, r.names.dropLast⟩

/-- The **path that a route stands for** in a current folder. -/
def path (current : Path) (r : Route) : Path := ⟨r.anchor.names current ++ r.names⟩

end Route

namespace Path

/-- The route of a path, from the root. -/
def route (p : Path) : Route := ⟨.root, p.names⟩

/-- The path that a text stands for in a current folder. -/
def ofText (current : Path) (s : String) : Path := (Route.ofText s).path current

/-- The route of a path has its text. -/
@[simp] theorem text_route (p : Path) : p.route.text = p.text := rfl

/-- The route of a path stands for it in every folder. -/
@[simp] theorem path_route (current p : Path) : p.route.path current = p := rfl

end Path

end Reckoner
