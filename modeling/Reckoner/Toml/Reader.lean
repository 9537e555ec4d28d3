import Reckoner.Toml.Outline
import Reckoner.Toml.Scalar

/-! # Reading TOML

The table that a TOML document stands for.

* **`scanValue`** — any value at the head of a text, with the lists and tables in it.
* **`readStatement`** — a header or an entry.
* **`nestingRoom`** — the limit to how deep lists and tables may lie in each other.
* **`Toml.read`** — the table of a whole document, or why it is refused: the first thing wrong with
  it, in the order of the text. -/

namespace Reckoner

namespace Toml

/-- The room in which the value of an entry is read. Each list and table takes some of it, and what
lies inside is read in the rest; so there is a limit to how deep they lie in each other. -/
def nestingRoom : Nat := 987

/-- The room that a list takes. -/
def listRoom : Nat := 2

/-- The room that a table takes. -/
def tableRoom : Nat := 3

mutual

/-- The value at the head of a text, and the text after it, if there is room for what lies in it. -/
def scanValue : (fuel : Nat) → (room : Nat) → List Char → Except Refusal (Document × List Char)
  | 0, _, _ => .error .malformed
  | fuel + 1, room, cs =>
    match cs with
    | '"' :: _ => found ((scanString cs).map fun (text, rest) => (.text (String.ofList text), rest))
    | '\'' :: _ => found ((scanString cs).map fun (text, rest) => (.text (String.ofList text), rest))
    | '[' :: rest =>
      if room < listRoom then .error (.excess .nesting)
      else
        match skipFiller rest with
        | none => .error .malformed
        | some (']' :: rest) => .ok (.list [], rest)
        | some body => scanItems fuel (room - listRoom) [] body
    | '\x7b' :: rest =>
      if room < tableRoom then .error (.excess .nesting)
      else
        match skipSpace rest with
        | '\x7d' :: rest => .ok (.table [], rest)
        | body => scanEntries fuel (room - tableRoom) {} body
    | _ => scanScalar cs

/-- The items of a list up to its bracket, after those in `read`, the latest first. A comma may
follow the last item. -/
def scanItems : (fuel : Nat) → (room : Nat) → List Document → List Char →
    Except Refusal (Document × List Char)
  | 0, _, _, _ => .error .malformed
  | fuel + 1, room, read, cs =>
    match scanValue fuel room cs with
    | .error e => .error e
    | .ok (value, rest) =>
      match skipFiller rest with
      | some (']' :: rest) => .ok (.list (value :: read).reverse, rest)
      | some (',' :: rest) =>
        match skipFiller rest with
        | none => .error .malformed
        | some (']' :: rest) => .ok (.list (value :: read).reverse, rest)
        | some body => scanItems fuel room (value :: read) body
      | _ => .error .malformed

/-- The entries of a table up to its brace, after those in `table`. -/
def scanEntries : (fuel : Nat) → (room : Nat) → InlineTable → List Char →
    Except Refusal (Document × List Char)
  | 0, _, _, _ => .error .malformed
  | fuel + 1, room, table, cs =>
    match scanKey cs with
    | some (key, '=' :: rest) =>
      match scanValue fuel room (skipSpace rest) with
      | .error e => .error e
      | .ok (value, rest) =>
        match table.assign key value with
        | none => .error .malformed
        | some table =>
          match skipSpace rest with
          | '\x7d' :: rest => .ok (.table table.entries, rest)
          | ',' :: rest => scanEntries fuel room table (skipSpace rest)
          | _ => .error .malformed
    | _ => .error .malformed

end

/-- A key in the brackets of a header, and the text after it. -/
def scanHeader (brackets : List Char) (cs : List Char) : Option (Key × List Char) :=
  match scanKey (skipSpace cs) with
  | none => none
  | some (key, rest) =>
    if brackets.isPrefixOf rest then some (key, rest.drop brackets.length) else none

/-- A header or an entry at the head of a line: the outline with it, and the text after it. -/
def readStatement (o : Outline) : List Char → Except Refusal (Outline × List Char)
  | '#' :: rest => .ok (o, '#' :: rest)
  | '[' :: '[' :: rest =>
    match scanHeader [']', ']'] rest with
    | none => .error .malformed
    | some (key, rest) => found ((o.endSection.openItem key).map fun o => (o, rest))
  | '[' :: rest =>
    match scanHeader [']'] rest with
    | none => .error .malformed
    | some (key, rest) => found ((o.endSection.openTable key).map fun o => (o, rest))
  | cs =>
    match scanKey cs with
    | some (key, '=' :: rest) =>
      match scanValue (rest.length + 1) nestingRoom (skipSpace rest) with
      | .error e => .error e
      | .ok (value, rest) => found ((o.assign key value).map fun o => (o, rest))
    | _ => .error .malformed

/-- The lines of a document, each with a statement or nothing on it and perhaps a comment. -/
def readLines : (fuel : Nat) → Outline → List Char → Except Refusal Outline
  | 0, _, _ => .error .malformed
  | fuel + 1, o, cs =>
    match skipSpace cs with
    | [] => .ok o
    | '\n' :: rest => readLines fuel o rest
    | body =>
      match readStatement o body with
      | .error e => .error e
      | .ok (o, rest) =>
        match skipComment (skipSpace rest) with
        | some [] => .ok o
        | some ('\n' :: rest) => readLines fuel o rest
        | _ => .error .malformed

/-- The **table of a whole document**. -/
def read (s : String) : Except Refusal Document :=
  let cs := unifyLines s.toList
  (readLines (cs.length + 1) {} cs).map fun o => .table o.entries

end Toml

end Reckoner
