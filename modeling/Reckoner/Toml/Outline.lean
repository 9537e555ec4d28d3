import Reckoner.Document
import Reckoner.Toml.Lexical

/-! # Documents under construction

What has been read of a TOML document, and which of its tables may still grow.

* **`updateTable`** — a change to the table that a key leads to; tables on the way are made.
* **`Outline`** — the entries so far and the restrictions on what may follow.
* **`Outline.openTable`, `Outline.openItem`** — headers.
* **`Outline.assign`** — an entry of the table that the latest header opened.
* **`InlineTable.assign`** — an entry of a table that is written inside braces. -/

namespace Reckoner

namespace Toml

/-- The entries of a table. -/
abbrev Entries := List (String × Document)

/-- Makes a change to the table that a key leads to. Tables on the way are made where they are
missing; where `intoLists` holds, a list of tables stands for its last table. Any other value on the
way is an obstacle. -/
def updateTable (intoLists : Bool) (change : Entries → Option Entries) :
    Key → Entries → Option Entries
  | [], entries => change entries
  | part :: rest, entries =>
    match entries.lookup part with
    | none =>
      (updateTable intoLists change rest []).map fun sub => Document.put part (.table sub) entries
    | some (.table sub) =>
      (updateTable intoLists change rest sub).map fun sub => Document.put part (.table sub) entries
    | some (.list items) =>
      match intoLists, items.getLast? with
      | true, some (.table sub) =>
        (updateTable intoLists change rest sub).map fun sub =>
          Document.put part (.list (items.dropLast ++ [.table sub])) entries
      | _, _ => none
    | some _ => none

/-- Adds an entry that is not there yet. -/
def addEntry (name : String) (value : Document) (entries : Entries) : Option Entries :=
  match entries.lookup name with
  | none => some (Document.put name value entries)
  | some _ => none

/-- Adds an empty table at the end of a list of tables, which is made if it is missing. -/
def addItem (name : String) (entries : Entries) : Option Entries :=
  match entries.lookup name with
  | none => some (Document.put name (.list [.table []]) entries)
  | some (.list items) => some (Document.put name (.list (items ++ [.table []])) entries)
  | some _ => none

/-- Whether a value is complete as it is written and takes no further entries. -/
def isComplete : Document → Bool
  | .list _ => true
  | .table _ => true
  | _ => false

/-- Whether a key leads to or through one of the given keys. -/
def passes (keys : List Key) (key : Key) : Bool := keys.any fun k => k.isPrefixOf key

/-- A document under construction. -/
structure Outline where
  /-- What has been read. -/
  entries : Entries := []
  /-- The key of the latest header. -/
  header : Key := []
  /-- The tables that no header may open. -/
  declared : List Key := []
  /-- The tables that no header may open once the next header has been read. -/
  pending : List Key := []
  /-- The lists and tables that are complete as they are written. -/
  complete : List Key := []

namespace Outline

/-- Ends the section of the latest header. -/
def endSection (o : Outline) : Outline :=
  { o with declared := o.pending ++ o.declared, pending := [] }

/-- Opens a table. A table is opened by one header only, and not inside a complete value. -/
def openTable (key : Key) (o : Outline) : Option Outline :=
  if o.declared.contains key || passes o.complete key then none
  else
    (updateTable true some key o.entries).map fun entries =>
      { o with entries, header := key, declared := key :: o.declared }

/-- Opens a further table at the end of a list of tables. What was said of keys inside the previous
table is forgotten. -/
def openItem (key : Key) (o : Outline) : Option Outline :=
  if passes o.complete key then none
  else
    match key.getLast? with
    | none => none
    | some name =>
      (updateTable true (addItem name) key.dropLast o.entries).map fun entries =>
        { o with
          entries
          header := key
          declared := key :: o.declared.filter fun k => !key.isPrefixOf k
          complete := o.complete.filter fun k => !key.isPrefixOf k }

/-- The tables that a key passes through below the latest header. -/
def tablesOf (o : Outline) (key : Key) : List Key :=
  (List.range key.length).tail.map fun i => o.header ++ key.take i

/-- Adds an entry below the latest header. The tables on the way are neither opened by a header nor
complete, and no header may open them later. -/
def assign (key : Key) (value : Document) (o : Outline) : Option Outline :=
  let path := o.header ++ key
  let tables := o.tablesOf key
  if tables.any o.declared.contains || passes o.complete path.dropLast then none
  else
    match key.getLast? with
    | none => none
    | some name =>
      (updateTable true (addEntry name value) path.dropLast o.entries).map fun entries =>
        { o with
          entries
          pending := tables ++ o.pending
          complete := if isComplete value then path :: o.complete else o.complete }

end Outline

/-- A table that is written inside braces, while it is being read. -/
structure InlineTable where
  /-- What has been read. -/
  entries : Entries := []
  /-- The lists and tables that are complete as they are written. -/
  complete : List Key := []

/-- Adds an entry. Complete values take no further entries. -/
def InlineTable.assign (key : Key) (value : Document) (t : InlineTable) : Option InlineTable :=
  if passes t.complete key then none
  else
    match key.getLast? with
    | none => none
    | some name =>
      (updateTable false (addEntry name value) key.dropLast t.entries).map fun entries =>
        ⟨entries, if isComplete value then key :: t.complete else t.complete⟩

end Toml

end Reckoner
