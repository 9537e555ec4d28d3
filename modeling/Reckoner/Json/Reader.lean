import Reckoner.Binary64.Decimal
import Reckoner.Document
import Reckoner.Text.Hexadecimal

/-! # Reading JSON

The documents that a JSON text stands for. Besides the standard, the words `NaN`, `Infinity` and
`-Infinity` are numbers. Integers are kept apart from numbers with a fraction or an exponent.

* **`Json.skipBlank`** — the four blanks of JSON.
* **`Json.scanString`, `Json.scanNumber`** — strings and numbers.
* **`Json.scanValue`** — any value at the head of a text.
* **`Json.read?`** — the value of a whole text. -/

namespace Reckoner

namespace Json

/-- Whether a character may stand between the parts of a text. -/
def isBlank (c : Char) : Bool := c = ' ' || c = '\t' || c = '\n' || c = '\r'

/-- A text without the blanks at its head. -/
def skipBlank (cs : List Char) : List Char := cs.dropWhile isBlank

/-- The character for the letter of a short escape. -/
def shortEscape? (c : Char) : Option Char :=
  match c with
  | '"' => some '"'
  | '\\' => some '\\'
  | '/' => some '/'
  | 'b' => some '\x08'
  | 'f' => some '\x0c'
  | 'n' => some '\n'
  | 'r' => some '\r'
  | 't' => some '\t'
  | _ => none

/-- The character of two code units that form a pair. -/
def pairOf? (high low : Nat) : Option Char :=
  if 0xd800 ≤ high ∧ high < 0xdc00 ∧ 0xdc00 ≤ low ∧ low < 0xe000 then
    some (Char.ofNat (0x10000 + (high - 0xd800) * 0x400 + (low - 0xdc00)))
  else none

/-- The character of a single code unit; half a pair becomes the replacement character. -/
def unitChar (n : Nat) : Char := if 0xd800 ≤ n ∧ n < 0xe000 then '\ufffd' else Char.ofNat n

/-- The characters up to the closing quote, and the text after it. Control characters must be
escaped. -/
def scanString (read : List Char) : List Char → Option (String × List Char)
  | '"' :: rest => some (String.ofList read.reverse, rest)
  | '\\' :: 'u' :: a :: b :: c :: d :: '\\' :: 'u' :: e :: f :: g :: h :: rest =>
    match numberInBase? 16 [a, b, c, d] with
    | none => none
    | some high =>
      match (numberInBase? 16 [e, f, g, h]).bind (pairOf? high) with
      | some x => scanString (x :: read) rest
      | none => scanString (unitChar high :: read) ('\\' :: 'u' :: e :: f :: g :: h :: rest)
  | '\\' :: 'u' :: a :: b :: c :: d :: rest =>
    match numberInBase? 16 [a, b, c, d] with
    | some n => scanString (unitChar n :: read) rest
    | none => none
  | '\\' :: c :: rest =>
    match shortEscape? c with
    | some x => scanString (x :: read) rest
    | none => none
  | c :: rest => if c.toNat < 0x20 then none else scanString (c :: read) rest
  | [] => none

/-- The digits at the head of a text, and the text after them. -/
def splitDigits (cs : List Char) : List Char × List Char :=
  (cs.takeWhile Char.isDigit, cs.dropWhile Char.isDigit)

/-- A fraction at the head of a text: its digits and the text after them. -/
def scanFraction : List Char → List Char × List Char
  | '.' :: rest =>
    match splitDigits rest with
    | ([], _) => ([], '.' :: rest)
    | split => split
  | cs => ([], cs)

/-- A number at the head of a text. The integer part has no needless zero. -/
def scanNumber (cs : List Char) : Option (Document × List Char) :=
  let (negative, body) : Bool × List Char := match cs with
    | '-' :: r => (true, r)
    | r => (false, r)
  let (whole, afterWhole) : List Char × List Char := match body with
    | '0' :: r => (['0'], r)
    | r => splitDigits r
  if whole.isEmpty then none
  else
    let (fraction, afterFraction) := scanFraction afterWhole
    let coefficient := digitsValue (whole ++ fraction)
    match fraction, scanExponent? afterFraction with
    | [], none =>
      some (.integer (if negative then -(coefficient : Int) else coefficient), afterFraction)
    | fraction, none =>
      some (.number (.ofDecimal negative ⟨coefficient, -fraction.length⟩), afterFraction)
    | fraction, some (power, rest) =>
      some (.number (.ofDecimal negative ⟨coefficient, power - fraction.length⟩), rest)

/-- The words that stand for values. -/
def words : List (List Char × Document) :=
  [("null".toList, .null), ("true".toList, .boolean true), ("false".toList, .boolean false),
    ("NaN".toList, .number (.nan false)), ("Infinity".toList, .number (.infinity false)),
    ("-Infinity".toList, .number (.infinity true))]

mutual

/-- The value at the head of a text without leading blanks, and the text after it. -/
def scanValue : (fuel : Nat) → List Char → Option (Document × List Char)
  | 0, _ => none
  | fuel + 1, cs =>
    match cs with
    | '"' :: rest => (scanString [] rest).map fun (s, rest) => (.text s, rest)
    | '[' :: rest =>
      match skipBlank rest with
      | ']' :: rest => some (.list [], rest)
      | body => scanItems fuel [] body
    | '\x7b' :: rest =>
      match skipBlank rest with
      | '\x7d' :: rest => some (.table [], rest)
      | body => scanEntries fuel [] body
    | _ =>
      match words.find? fun (word, _) => word.isPrefixOf cs with
      | some (word, value) => some (value, cs.drop word.length)
      | none => scanNumber cs

/-- The items of a list up to its bracket, after those in `read`, the latest first. -/
def scanItems : (fuel : Nat) → List Document → List Char → Option (Document × List Char)
  | 0, _, _ => none
  | fuel + 1, read, cs =>
    match scanValue fuel cs with
    | none => none
    | some (value, rest) =>
      match skipBlank rest with
      | ',' :: rest => scanItems fuel (value :: read) (skipBlank rest)
      | ']' :: rest => some (.list (value :: read).reverse, rest)
      | _ => none

/-- The entries of a table up to its brace, after those in `read`. -/
def scanEntries : (fuel : Nat) → List (String × Document) → List Char →
    Option (Document × List Char)
  | 0, _, _ => none
  | fuel + 1, read, cs =>
    match cs with
    | '"' :: rest =>
      match scanString [] rest with
      | none => none
      | some (key, rest) =>
        match skipBlank rest with
        | ':' :: rest =>
          match scanValue fuel (skipBlank rest) with
          | none => none
          | some (value, rest) =>
            match skipBlank rest with
            | ',' :: rest => scanEntries fuel (Document.put key value read) (skipBlank rest)
            | '\x7d' :: rest => some (.table (Document.put key value read), rest)
            | _ => none
        | _ => none
    | _ => none

end

/-- The document that a whole text stands for, with blanks around it allowed. -/
def read? (s : String) : Option Document :=
  let cs := s.toList
  match scanValue (cs.length + 1) (skipBlank cs) with
  | some (value, rest) => if (skipBlank rest).isEmpty then some value else none
  | none => none

end Json

end Reckoner
