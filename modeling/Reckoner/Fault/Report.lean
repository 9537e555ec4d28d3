import Reckoner.Fault
import Reckoner.Text.Blank
import Reckoner.Text.Quoted
import Reckoner.Text.Search

/-! # Reports of faults

What a user sees of a fault: the message, the line of the expression that it points into, a marker
under the characters at fault, and a hint.

* **`Diagnostic`** — everything about a fault that a report shows.
* **`Fault.diagnostic`** — the diagnostic of a fault.
* **`underline`, `markerText`** — the marker: a caret at each end and tildes between.
* **`markedMessage`** — a message with the marked line.
* **`Diagnostic.hint`** — advice, for the kinds of fault that have some.
* **`Diagnostic.report`** — the full report. -/

namespace Reckoner

/-- The arguments that a function expects and those it received. -/
structure Signature where
  /-- The name of the function. -/
  function : String
  /-- How many arguments it takes. -/
  expected : Int
  /-- How many arguments it was given. -/
  received : Int
  deriving DecidableEq, Repr

/-- A **diagnostic**: a fault as it is reported. -/
structure Diagnostic where
  /-- The stage that found the fault. -/
  category : FaultCategory
  /-- The code of the fault. -/
  kind : FaultKind
  /-- What is wrong. -/
  message : String
  /-- The text that the span is in. -/
  source : String
  /-- The position of the first character at fault; a negative one counts from the end. -/
  offset : Int
  /-- The number of characters at fault. -/
  length : Int
  /-- For a wrong number of arguments, the numbers. -/
  signature : Option Signature
  deriving DecidableEq, Repr

/-- The name under which the category of a fault is reported. -/
def FaultCategory.typeName : FaultCategory → String
  | .general => "ShuntError"
  | .settings => "ShuntConfigError"
  | .lexical => "ShuntLexError"
  | .syntactic => "ShuntSyntaxError"
  | .arity => "ShuntArityError"
  | .evaluation => "ShuntEvaluationError"
  | .invariant => "ShuntInvariantError"

/-- The numbers of arguments that a cause is about. -/
def Cause.signature : Cause → Option Signature
  | .arityMismatch function expected received => some ⟨function, expected, received⟩
  | _ => none

/-- The **diagnostic of a fault**. -/
def Fault.diagnostic (f : Fault) : Diagnostic where
  category := f.category
  kind := f.kind
  message := f.message
  source := f.source
  offset := f.offset
  length := f.length
  signature := f.cause.signature

/-- The diagnostic of a call with a wrong number of arguments. -/
def Diagnostic.ofSignature (s : Signature) (source : String) (offset length : Int) : Diagnostic where
  category := .arity
  kind := .arityMismatch
  message := arityMessage s.function s.expected s.received
  source := source
  offset := offset
  length := length
  signature := some s

/-! ## Markers -/

/-- A marker of the given width: a caret at each end and tildes between. -/
def underline : Nat → List Char
  | 0 => []
  | 1 => ['^']
  | n + 2 => '^' :: (List.replicate n '~' ++ ['^'])

/-- An underline is as wide as it is asked to be. -/
@[simp] theorem length_underline (n : Nat) : (underline n).length = n := by
  match n with
  | 0 => rfl
  | 1 => rfl
  | n + 2 => simp [underline]

/-- Padding as wide as a text: tabs stay tabs, and everything else becomes a space. -/
def padLike (before : List Char) : List Char := before.map fun c => if c = '\t' then '\t' else ' '

/-- The marker for a span of the given length, under a line on which `before` precedes the span, or
after as many spaces as the offset says. No marker for an empty span. -/
def markerText (offset length : Int) (before : Option String) : String :=
  if length < 1 then ""
  else
    let pad := match before with
      | none => List.replicate offset.toNat ' '
      | some text => padLike text.toList
    String.ofList (pad ++ underline length.toNat)

/-- A position in a text of the given size: negative offsets count from the end, and positions
outside are moved to the nearest end. -/
def clampPosition (size : Nat) (offset : Int) : Nat :=
  if offset < 0 then (offset + size).toNat else min offset.toNat size

/-- The part of a line before a position: what follows the last line break. -/
def lineBefore (before : List Char) : List Char :=
  (before.reverse.takeWhile (· ≠ '\n')).reverse

/-- The rest of a line from a position: what precedes the next line break. -/
def lineAfter (after : List Char) : List Char := after.takeWhile (· ≠ '\n')

/-- A **message with the marked line**: the line that holds the offset, and beneath it a marker that
ends with the line at the latest. A fault without a span or a text has the message only. -/
def markedMessage (message source : String) (offset length : Int) : String :=
  if length < 1 ∨ source = "" then message
  else
    let text := source.toList
    let position := clampPosition text.length offset
    let left := lineBefore (text.take position)
    let right := lineAfter (text.drop position)
    let stop : Int := position + right.length
    let width := min length (max 1 (stop - offset))
    joinLines [message, String.ofList (left ++ right),
      String.ofList (padLike left ++ underline width.toNat)]

/-! ## Hints and reports -/

/-- The advice for faults of a kind. -/
def FaultKind.hint : FaultKind → Option String
  | .emptyInput => some "pass a non-empty expression such as `1 + 2`"
  | .scientificNotationSpacing => some "write the exponent without spaces, e.g. `2e+10`"
  | .unclosedParen => some "add the missing `)`"
  | .unmatchedCloseParen => some "remove the extra `)` or add the matching `(`"
  | .emptyParens => some "functions need at least one argument, e.g. `max(1, 2)`"
  | .missingOperator => some "insert an operator such as `*` between the two operands"
  | .unknownVariable => some "known constants are `pi`, `e` and `tau`"
  | .nestingTooDeep => some "raise [limits] max_depth in shunt.toml"
  | .inputTooLong => some "raise [limits] max_length in shunt.toml"
  | _ => none

namespace Diagnostic

/-- The **advice** for a diagnostic. Settings, malformed programs and wrong numbers of arguments have
advice of their own, whatever their kind. -/
def hint (d : Diagnostic) : Option String :=
  match d.category with
  | .settings =>
    if containsText "Missing shunt.toml".toList d.message.toList then
      some "create a shunt.toml with `version = 1` in your project root"
    else none
  | .invariant => some "this is a bug in shunt; please report the expression that triggered it"
  | .arity =>
    d.signature.map fun s => s.function ++ "() takes exactly " ++ toString s.expected ++
      " argument(s)"
  | _ => d.kind.hint

/-- The message with the marked line. -/
def render (d : Diagnostic) : String := markedMessage d.message d.source d.offset d.length

end Diagnostic

/-- A report: the rendered message and, if there is one, the advice. -/
def reportText (rendered : String) (hint : Option String) : String :=
  match hint with
  | none => "error: " ++ rendered
  | some advice => "error: " ++ rendered ++ "\nhint: " ++ advice

/-- The **report** of a diagnostic. -/
def Diagnostic.report (d : Diagnostic) : String := reportText d.render d.hint

/-- The report of a fault. -/
def Fault.report (f : Fault) : String := f.diagnostic.report

/-- The report of a failure from elsewhere, which has a name and perhaps a text: the text without
blanks around it, or the name as a call if there is no text. -/
def foreignReport (name : String) (text : Option String) : String :=
  match text with
  | none => reportText (name ++ "()") none
  | some "" => reportText (name ++ "(" ++ quoted "" ++ ")") none
  | some s => reportText (String.ofList (trimBlank s.toList)) none

end Reckoner
