import Reckoner.Document
import Reckoner.Fault.Report

/-! # Faults as data

* **`Diagnostic.record`** — everything about a fault that a program may want to know, as a table.
* **`FaultCategory.exitCode`** — the exit code of a command that ends with a fault. -/

namespace Reckoner

/-- The entries for the numbers of arguments of a call. -/
def Signature.entries (s : Signature) : List (String × Document) :=
  [("function", .text s.function), ("expected", .integer s.expected),
    ("received", .integer s.received)]

/-- The **record of a fault**. -/
def Diagnostic.record (d : Diagnostic) : Document :=
  .table ([("type", .text d.category.typeName), ("kind", .text d.kind.code),
    ("message", .text d.message), ("offset", .integer d.offset), ("length", .integer d.length)] ++
    (d.signature.map Signature.entries).getD [])

/-- The exit code for faults of a category: two for settings, four for malformed programs, and three
for everything that is wrong with an expression. -/
def FaultCategory.exitCode : FaultCategory → Nat
  | .settings => 2
  | .invariant => 4
  | _ => 3

end Reckoner
