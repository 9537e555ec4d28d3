import Reckoner.Binary64.Basic
import Reckoner.Excess

/-! # Structured data

The values that settings files and machine-readable output are made of.

* **`Document`** — null, a truth value, an integer, a number, a text, a moment in time, a list, or
  a table whose entries keep their order.
* **`Document.get?`** — the entry of a table with a given key.
* **`Document.put`** — the entries of a table with one of them set. -/

namespace Reckoner

/-- A piece of **structured data**. -/
inductive Document where
  | null
  | boolean (value : Bool)
  | integer (value : Int)
  | number (value : Binary64)
  | text (value : String)
  /-- A date, a time or both, as it was written. -/
  | moment (written : String)
  | list (items : List Document)
  | table (entries : List (String × Document))

namespace Document

/-- The entry of a table with a given key; nothing else has entries. -/
def get? (key : String) : Document → Option Document
  | .table entries => entries.lookup key
  | _ => none

/-- Entries with the one for a key set: in its old place, or after all others if it is new. -/
def put (key : String) (value : Document) :
    List (String × Document) → List (String × Document)
  | [] => [(key, value)]
  | (k, v) :: rest => if k = key then (k, value) :: rest else (k, v) :: put key value rest

/-- A text if there is one, and null otherwise. -/
def ofText? : Option String → Document
  | some s => .text s
  | none => .null

end Document

end Reckoner
