import Reckoner.Binary64.Text
import Reckoner.Document
import Reckoner.Text.Quoted

/-! # Writing JSON

Structured data as JSON text in ASCII: every other character is written by its UTF-16 code units.

* **`Json.escapeChar`, `Json.quote`** — texts as JSON strings.
* **`Json.pretty`** — one entry to a line, two spaces deeper at each level.
* **`Json.compact`** — all on one line, with a space after each comma and colon. -/

namespace Reckoner

namespace Json

/-- A UTF-16 code unit as an escape. -/
def escapeUnit (n : Nat) : List Char := '\\' :: 'u' :: hexDigits 4 n

/-- A character inside a JSON string. Characters beyond the basic plane take two code units. -/
def escapeChar (c : Char) : List Char :=
  if c = '"' ∨ c = '\\' then ['\\', c]
  else if c = '\n' then ['\\', 'n']
  else if c = '\r' then ['\\', 'r']
  else if c = '\t' then ['\\', 't']
  else if c = '\x08' then ['\\', 'b']
  else if c = '\x0c' then ['\\', 'f']
  else if 0x20 ≤ c.toNat ∧ c.toNat < 0x7f then [c]
  else if c.toNat < 0x10000 then escapeUnit c.toNat
  else
    let n := c.toNat - 0x10000
    escapeUnit (0xd800 + n / 0x400) ++ escapeUnit (0xdc00 + n % 0x400)

/-- A text as a JSON string. -/
def quote (s : String) : List Char := '"' :: (s.toList.flatMap escapeChar ++ ['"'])

/-- The text of a number: its shortest decimal, or a word where there is none. -/
def numberText (x : Binary64) : String :=
  if x.isNaN then "NaN"
  else if x.isFinite then x.shortest
  else if x.isNegative then "-Infinity"
  else "Infinity"

/-- The text of a value that has no parts. A moment is written as a string. -/
def atom : Document → List Char
  | .null => "null".toList
  | .boolean true => "true".toList
  | .boolean false => "false".toList
  | .integer n => (toString n).toList
  | .number x => (numberText x).toList
  | .text s => quote s
  | .moment s => quote s
  | .list _ => ['[', ']']
  | .table _ => ['\x7b', '\x7d']

/-- What stands between a key and its value. -/
def afterKey : List Char := [':', ' ']

/-- A line break and the indentation of a level. -/
def newline (level : Nat) : List Char := '\n' :: List.replicate (2 * level) ' '

mutual

/-- The text of a value at a level of indentation, one entry to a line. -/
def prettyAt (level : Nat) : Document → List Char
  | .list [] => ['[', ']']
  | .table [] => ['\x7b', '\x7d']
  | .list (d :: ds) =>
    '[' :: (newline (level + 1) ++ prettyAt (level + 1) d ++ prettyItems (level + 1) ds ++
      newline level ++ [']'])
  | .table ((k, d) :: es) =>
    '\x7b' :: (newline (level + 1) ++ quote k ++ afterKey ++ prettyAt (level + 1) d ++
      prettyEntries (level + 1) es ++ newline level ++ ['\x7d'])
  | d => atom d

/-- Further items of a list. -/
def prettyItems (level : Nat) : List Document → List Char
  | [] => []
  | d :: ds => ',' :: (newline level ++ prettyAt level d ++ prettyItems level ds)

/-- Further entries of a table. -/
def prettyEntries (level : Nat) : List (String × Document) → List Char
  | [] => []
  | (k, d) :: es =>
    ',' :: (newline level ++ quote k ++ afterKey ++ prettyAt level d ++ prettyEntries level es)

end

/-- A document as JSON with one entry to a line. -/
def pretty (d : Document) : String := String.ofList (prettyAt 0 d)

mutual

/-- The text of a value on one line. -/
def compactText : Document → List Char
  | .list [] => ['[', ']']
  | .table [] => ['\x7b', '\x7d']
  | .list (d :: ds) => '[' :: (compactText d ++ compactItems ds ++ [']'])
  | .table ((k, d) :: es) =>
    '\x7b' :: (quote k ++ afterKey ++ compactText d ++ compactEntries es ++ ['\x7d'])
  | d => atom d

/-- Further items of a list. -/
def compactItems : List Document → List Char
  | [] => []
  | d :: ds => ',' :: ' ' :: (compactText d ++ compactItems ds)

/-- Further entries of a table. -/
def compactEntries : List (String × Document) → List Char
  | [] => []
  | (k, d) :: es => ',' :: ' ' :: (quote k ++ afterKey ++ compactText d ++ compactEntries es)

end

/-- A document as JSON on one line. -/
def compact (d : Document) : String := String.ofList (compactText d)

end Json

end Reckoner
