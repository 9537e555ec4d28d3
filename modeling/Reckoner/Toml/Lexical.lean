import Reckoner.Text.Hexadecimal

/-! # The words of TOML

Blanks, comments, strings and keys of the TOML format. Every scanner takes what stands at the head
of a text and returns it with the text that follows, or nothing where the format is violated.

* **`unifyLines`** — line ends of two characters become one.
* **`skipSpace`, `skipComment`, `skipFiller`** — what may stand between the parts of a document.
* **`scanBasic`, `scanLiteral`** — strings on one line, with and without escapes.
* **`scanBasicLines`, `scanLiteralLines`** — strings over several lines.
* **`scanKey`** — the parts of a dotted key. -/

namespace Reckoner

namespace Toml

/-- A text with its line ends made one character each. -/
def unifyLines : List Char → List Char
  | '\r' :: '\n' :: rest => '\n' :: unifyLines rest
  | c :: rest => c :: unifyLines rest
  | [] => []

/-! ## Between the parts -/

/-- The blanks that may stand between the parts of a line. -/
def isSpace (c : Char) : Bool := c = ' ' || c = '\t'

/-- The blanks that may stand between the items of a list. -/
def isFiller (c : Char) : Bool := isSpace c || c = '\n'

/-- The control characters that no text holds; line breaks are allowed where lines are. -/
def isBarred (lines : Bool) (c : Char) : Bool :=
  (c.toNat < 0x20 || c.toNat = 0x7f) && c ≠ '\t' && !(lines && c = '\n')

/-- A text without the blanks at its head. -/
def skipSpace (cs : List Char) : List Char := cs.dropWhile isSpace

/-- Whether a character belongs to the same line. -/
def inLine (c : Char) : Bool := c ≠ '\n'

/-- A text without a comment at its head; the line break that ends the comment stays. -/
def skipComment : List Char → Option (List Char)
  | '#' :: rest =>
    if (rest.takeWhile inLine).any (isBarred false) then none else some (rest.dropWhile inLine)
  | cs => some cs

/-- A text without the blanks, line breaks and comments at its head. -/
def skipFiller (cs : List Char) : Option (List Char) :=
  match h : cs.dropWhile isFiller with
  | '#' :: rest =>
    if (rest.takeWhile inLine).any (isBarred false) then none
    else
      have : (rest.dropWhile inLine).length < cs.length := by
        have h₁ := (List.dropWhile_sublist (l := rest) inLine).length_le
        have h₂ := (List.dropWhile_sublist (l := cs) isFiller).length_le
        rw [h, List.length_cons] at h₂
        omega
      skipFiller (rest.dropWhile inLine)
  | rest => some rest
termination_by cs.length

/-! ## Strings -/

/-- The character that the letter of a short escape stands for. -/
def shortEscape? (c : Char) : Option Char :=
  match c with
  | 'b' => some '\x08'
  | 't' => some '\t'
  | 'n' => some '\n'
  | 'f' => some '\x0c'
  | 'r' => some '\r'
  | '"' => some '"'
  | '\\' => some '\\'
  | _ => none

/-- The character whose code point is given by hexadecimal digits. -/
def codePoint? (digits : List Char) : Option Char :=
  match numberInBase? 16 digits with
  | some n => if n.isValidChar then some (Char.ofNat n) else none
  | none => none

/-- A string up to its closing double quote, after the characters in `read`, the latest first. -/
def scanBasic (read : List Char) : List Char → Option (List Char × List Char)
  | '"' :: rest => some (read.reverse, rest)
  | '\\' :: 'u' :: a :: b :: c :: d :: rest =>
    match codePoint? [a, b, c, d] with
    | some x => scanBasic (x :: read) rest
    | none => none
  | '\\' :: 'U' :: a :: b :: c :: d :: e :: f :: g :: h :: rest =>
    match codePoint? [a, b, c, d, e, f, g, h] with
    | some x => scanBasic (x :: read) rest
    | none => none
  | '\\' :: c :: rest =>
    match shortEscape? c with
    | some x => scanBasic (x :: read) rest
    | none => none
  | c :: rest => if c = '\\' || isBarred false c then none else scanBasic (c :: read) rest
  | [] => none

/-- A string up to its closing single quote. Nothing is escaped in it. -/
def scanLiteral (cs : List Char) : Option (List Char × List Char) :=
  let text := cs.takeWhile (· ≠ '\'')
  match cs.dropWhile (· ≠ '\'') with
  | _ :: rest => if text.any (isBarred false) then none else some (text, rest)
  | [] => none

/-- Where the reading of a string over several lines stands. -/
inductive LineMode where
  /-- In the text. -/
  | text
  /-- After a backslash and blanks; only a line break may follow. -/
  | lineEnd
  /-- At the beginning of a continued line, where blanks and line breaks are skipped. -/
  | continued
  deriving DecidableEq, Repr

/-- A string over several lines up to its three closing double quotes. A backslash at the end of a
line continues the text at the next character that is not blank. -/
def scanBasicLines (mode : LineMode) (read : List Char) :
    List Char → Option (List Char × List Char)
  | [] => none
  | c :: rest =>
    if mode = .lineEnd then
      if c = '\n' then scanBasicLines .continued read rest
      else if isSpace c then scanBasicLines .lineEnd read rest
      else none
    else if mode = .continued && isFiller c then scanBasicLines .continued read rest
    else
      match c, rest with
      | '"', '"' :: '"' :: rest => some (read.reverse, rest)
      | '\\', 'u' :: a :: b :: c :: d :: rest =>
        match codePoint? [a, b, c, d] with
        | some x => scanBasicLines .text (x :: read) rest
        | none => none
      | '\\', 'U' :: a :: b :: c :: d :: e :: f :: g :: h :: rest =>
        match codePoint? [a, b, c, d, e, f, g, h] with
        | some x => scanBasicLines .text (x :: read) rest
        | none => none
      | '\\', c :: rest =>
        if c = '\n' then scanBasicLines .continued read rest
        else if isSpace c then scanBasicLines .lineEnd read rest
        else
          match shortEscape? c with
          | some x => scanBasicLines .text (x :: read) rest
          | none => none
      | c, rest =>
        if c = '\\' || isBarred true c then none else scanBasicLines .text (c :: read) rest

/-- A string over several lines up to its three closing single quotes. -/
def scanLiteralLines (read : List Char) : List Char → Option (List Char × List Char)
  | '\'' :: '\'' :: '\'' :: rest => some (read.reverse, rest)
  | c :: rest => if isBarred true c then none else scanLiteralLines (c :: read) rest
  | [] => none

/-- A text without a line break at its very head. -/
def dropLineBreak : List Char → List Char
  | '\n' :: rest => rest
  | cs => cs

/-- Up to two quotes right after the closing ones belong to the string. -/
def takeExtraQuotes (quote : Char) : List Char × List Char → List Char × List Char
  | (text, rest) =>
    let extra := (rest.take 2).takeWhile (· = quote)
    (text ++ extra, rest.drop extra.length)

/-- A string of any form. -/
def scanString : List Char → Option (List Char × List Char)
  | '"' :: '"' :: '"' :: rest =>
    (scanBasicLines .text [] (dropLineBreak rest)).map (takeExtraQuotes '"')
  | '"' :: rest => scanBasic [] rest
  | '\'' :: '\'' :: '\'' :: rest =>
    (scanLiteralLines [] (dropLineBreak rest)).map (takeExtraQuotes '\'')
  | '\'' :: rest => scanLiteral rest
  | _ => none

/-! ## Keys -/

/-- The steps from the outermost table to an entry. -/
abbrev Key := List String

/-- The characters of a key without quotes. -/
def isBareKeyChar (c : Char) : Bool := c.isAlphanum || c = '-' || c = '_'

/-- One part of a key: bare, or a string on one line. -/
def scanKeyPart : List Char → Option (List Char × List Char)
  | '"' :: rest => scanBasic [] rest
  | '\'' :: rest => scanLiteral rest
  | cs =>
    match cs.takeWhile isBareKeyChar with
    | [] => none
    | bare => some (bare, cs.dropWhile isBareKeyChar)

/-- The parts of a key, separated by points; the blanks after the key are taken as well. -/
def scanKeyParts : (fuel : Nat) → List Char → Option (Key × List Char)
  | 0, _ => none
  | fuel + 1, cs =>
    match scanKeyPart cs with
    | none => none
    | some (part, rest) =>
      match skipSpace rest with
      | '.' :: rest =>
        (scanKeyParts fuel (skipSpace rest)).map fun (parts, rest) =>
          (String.ofList part :: parts, rest)
      | rest => some ([String.ofList part], rest)

/-- The parts of a key; it has no more of them than characters. -/
def scanKey (cs : List Char) : Option (Key × List Char) := scanKeyParts (cs.length + 1) cs

end Toml

end Reckoner
