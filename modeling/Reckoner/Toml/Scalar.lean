import Reckoner.Binary64.Decimal
import Reckoner.Document
import Reckoner.Toml.Lexical

/-! # Numbers, words and moments of TOML

The values of the TOML format that have no parts, apart from strings.

* **`Refusal`** — why a document is refused.
* **`scanDigits`** — digits that single underscores may group.
* **`scanNumber`** — integers in four bases, and numbers with a fraction or an exponent.
* **`scanMoment`** — dates and times; a date must be one of the calendar.
* **`scanScalar`** — any of them. -/

namespace Reckoner

namespace Toml

/-- Why a document is refused. -/
inductive Refusal where
  /-- It violates the format. -/
  | malformed
  /-- Something in it is too large. -/
  | excess (excess : Excess)
  deriving DecidableEq, Repr

/-- What was found, or the refusal of a malformed document. -/
def found {α : Type} : Option α → Except Refusal α
  | some a => .ok a
  | none => .error .malformed

/-! ## Numbers -/

/-- Further digits of a number, without the underscores between them. -/
def scanMoreDigits (isDigit : Char → Bool) : List Char → List Char × List Char
  | '_' :: c :: rest =>
    if isDigit c then
      let (digits, rest) := scanMoreDigits isDigit rest
      (c :: digits, rest)
    else ([], '_' :: c :: rest)
  | c :: rest =>
    if isDigit c then
      let (digits, rest) := scanMoreDigits isDigit rest
      (c :: digits, rest)
    else ([], c :: rest)
  | [] => ([], [])

/-- Digits that single underscores may group: at least one, and no underscore at either end. -/
def scanDigits (isDigit : Char → Bool) : List Char → Option (List Char × List Char)
  | c :: rest =>
    if isDigit c then
      let (digits, rest) := scanMoreDigits isDigit rest
      some (c :: digits, rest)
    else none
  | [] => none

/-- An integer in another base than ten, after its mark. -/
def scanInBase (base : Nat) (cs : List Char) : Option (Document × List Char) :=
  (scanDigits (fun c => (digitValue? base c).isSome) cs).bind fun (digits, rest) =>
    (numberInBase? base digits).map fun n => (.integer n, rest)

/-- The digits of a fraction at the head of a text; none if there is no fraction. -/
def scanFraction : List Char → List Char × List Char
  | '.' :: rest => (scanDigits Char.isDigit rest).getD ([], '.' :: rest)
  | cs => ([], cs)

/-- The value of an exponent at the head of a text. -/
def scanExponent? : List Char → Option (Int × List Char)
  | c :: rest =>
    if c = 'e' ∨ c = 'E' then
      let (negative, body) : Bool × List Char := match rest with
        | '-' :: r => (true, r)
        | '+' :: r => (false, r)
        | r => (false, r)
      (scanDigits Char.isDigit body).map fun (digits, rest) =>
        let size : Int := digitsValue digits
        (if negative then -size else size, rest)
    else none
  | [] => none

/-- The integer part of a decimal number: a single zero, or digits that begin with another one. -/
def scanWhole : List Char → Option (List Char × List Char)
  | '0' :: rest => some (['0'], rest)
  | cs => scanDigits Char.isDigit cs

/-- A decimal number after its sign. An integer may have no more digits than `maxIntegerDigits`. -/
def scanDecimal (negative : Bool) (cs : List Char) : Except Refusal (Document × List Char) :=
  match scanWhole cs with
  | none => .error .malformed
  | some (whole, afterWhole) =>
    let (fraction, afterFraction) := scanFraction afterWhole
    match fraction, scanExponent? afterFraction with
    | [], none =>
      let size : Int := digitsValue whole
      if maxIntegerDigits < whole.length then .error (.excess (.digitsRead whole.length))
      else .ok (.integer (if negative then -size else size), afterFraction)
    | fraction, none =>
      .ok (.number (.ofDecimal negative ⟨digitsValue (whole ++ fraction), -fraction.length⟩),
        afterFraction)
    | fraction, some (power, rest) =>
      .ok (.number (.ofDecimal negative ⟨digitsValue (whole ++ fraction), power - fraction.length⟩),
        rest)

/-- An integer in base sixteen, two or eight, without a sign and of any size. -/
def scanMarked : List Char → Option (Document × List Char)
  | '0' :: 'x' :: rest => scanInBase 16 rest
  | '0' :: 'b' :: rest => scanInBase 2 rest
  | '0' :: 'o' :: rest => scanInBase 8 rest
  | _ => none

/-- A number in any base. -/
def scanNumber (cs : List Char) : Except Refusal (Document × List Char) :=
  match scanMarked cs, cs with
  | some found, _ => .ok found
  | none, '+' :: rest => scanDecimal false rest
  | none, '-' :: rest => scanDecimal true rest
  | none, cs => scanDecimal false cs

/-- The words that stand for values. -/
def words : List (List Char × Document) :=
  [("true".toList, .boolean true), ("false".toList, .boolean false),
    ("inf".toList, .number (.infinity false)), ("+inf".toList, .number (.infinity false)),
    ("-inf".toList, .number (.infinity true)), ("nan".toList, .number (.nan false)),
    ("+nan".toList, .number (.nan false)), ("-nan".toList, .number (.nan true))]

/-- A word that stands for a value. -/
def scanWord (cs : List Char) : Option (Document × List Char) :=
  (words.find? fun (word, _) => word.isPrefixOf cs).map fun (word, value) =>
    (value, cs.drop word.length)

/-! ## Moments -/

/-- A number of two digits within bounds. -/
def scanTwoDigits (low high : Nat) : List Char → Option (Nat × List Char)
  | a :: b :: rest =>
    let n := digitsValue [a, b]
    if a.isDigit && b.isDigit && low ≤ n && n ≤ high then some (n, rest) else none
  | _ => none

/-- What follows a mark at the head of a text. -/
def scanMark (mark : Char) : List Char → Option (List Char)
  | c :: rest => if c = mark then some rest else none
  | [] => none

/-- What follows the fraction of a second at the head of a text, if there is one. -/
def skipSecondFraction : List Char → List Char
  | '.' :: c :: rest => if c.isDigit then rest.dropWhile Char.isDigit else '.' :: c :: rest
  | cs => cs

/-- What follows a time of day. -/
def skipTime? (cs : List Char) : Option (List Char) := do
  let (_, cs) ← scanTwoDigits 0 23 cs
  let cs ← scanMark ':' cs
  let (_, cs) ← scanTwoDigits 0 59 cs
  let cs ← scanMark ':' cs
  let (_, cs) ← scanTwoDigits 0 59 cs
  return skipSecondFraction cs

/-- What follows a difference from universal time. -/
def skipOffset? : List Char → Option (List Char)
  | c :: rest =>
    if c = 'Z' ∨ c = 'z' then some rest
    else if c = '+' ∨ c = '-' then do
      let (_, cs) ← scanTwoDigits 0 23 rest
      let cs ← scanMark ':' cs
      let (_, cs) ← scanTwoDigits 0 59 cs
      return cs
    else none
  | [] => none

/-- Whether a year has a leap day. -/
def isLeapYear (year : Nat) : Bool := year % 4 = 0 && (year % 100 ≠ 0 || year % 400 = 0)

/-- The number of days of a month. -/
def daysIn (year month : Nat) : Nat :=
  if month = 2 then (if isLeapYear year then 29 else 28)
  else if month = 4 ∨ month = 6 ∨ month = 9 ∨ month = 11 then 30
  else 31

/-- What follows a date of the calendar. -/
def skipDate? : List Char → Option (List Char)
  | a :: b :: c :: d :: rest =>
    if [a, b, c, d].all Char.isDigit then do
      let year := digitsValue [a, b, c, d]
      let cs ← scanMark '-' rest
      let (month, cs) ← scanTwoDigits 1 12 cs
      let cs ← scanMark '-' cs
      let (day, cs) ← scanTwoDigits 1 31 cs
      if 1 ≤ year ∧ day ≤ daysIn year month then some cs else none
    else none
  | _ => none

/-- What follows a time of day after a date, and its difference from universal time. -/
def skipTimeAfterDate? : List Char → Option (List Char)
  | c :: rest =>
    if c = 'T' ∨ c = 't' ∨ c = ' ' then
      (skipTime? rest).map fun rest => (skipOffset? rest).getD rest
    else none
  | [] => none

/-- What follows a date, a date with a time, or a time of day. -/
def skipMoment? (cs : List Char) : Option (List Char) :=
  match skipDate? cs with
  | some rest => some ((skipTimeAfterDate? rest).getD rest)
  | none => skipTime? cs

/-- A moment, as it is written. -/
def scanMoment (cs : List Char) : Option (Document × List Char) :=
  (skipMoment? cs).map fun rest =>
    (.moment (String.ofList (cs.take (cs.length - rest.length))), rest)

/-- A value without parts other than a string. -/
def scanScalar (cs : List Char) : Except Refusal (Document × List Char) :=
  match scanMoment cs <|> scanWord cs with
  | some found => .ok found
  | none => scanNumber cs

end Toml

end Reckoner
