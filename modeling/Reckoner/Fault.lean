import Reckoner.Excess

/-! # Faults

Why an expression, a program or a settings file is refused, and where.

* **`FaultKind`** — the machine-readable code of a fault.
* **`FaultCategory`** — the stage that finds it.
* **`Cause`** — what is wrong, with the details that the message names; `Cause.kind`,
  `Cause.category` and `Cause.message` read off the rest.
* **`Cause.isOverlong`** — a cause whose message cannot be written, since it would name an integer
  with too many digits.
* **`Fault`** — a cause with the text it concerns and the span it points at. -/

namespace Reckoner

/-- The machine-readable code of a fault. -/
inductive FaultKind where
  | emptyInput
  | inputTooLong
  | illegalCharacter
  | scientificNotationSpacing
  | invalidNumber
  | unknownVariable
  | unknownFunction
  | unmatchedCloseParen
  | unclosedParen
  | emptyParens
  | missingOperand
  | missingOperator
  | unexpectedToken
  | nestingTooDeep
  | arityMismatch
  | domainError
  | invariantViolation
  | invalidConfig
  deriving DecidableEq, Repr

namespace FaultKind

/-- All kinds. -/
def all : List FaultKind :=
  [.emptyInput, .inputTooLong, .illegalCharacter, .scientificNotationSpacing, .invalidNumber,
    .unknownVariable, .unknownFunction, .unmatchedCloseParen, .unclosedParen, .emptyParens,
    .missingOperand, .missingOperator, .unexpectedToken, .nestingTooDeep, .arityMismatch,
    .domainError, .invariantViolation, .invalidConfig]

/-- The code under which a kind is reported. -/
def code : FaultKind → String
  | .emptyInput => "empty_input"
  | .inputTooLong => "input_too_long"
  | .illegalCharacter => "illegal_character"
  | .scientificNotationSpacing => "scientific_notation_spacing"
  | .invalidNumber => "invalid_number"
  | .unknownVariable => "unknown_variable"
  | .unknownFunction => "unknown_function"
  | .unmatchedCloseParen => "unmatched_close_paren"
  | .unclosedParen => "unclosed_paren"
  | .emptyParens => "empty_parens"
  | .missingOperand => "missing_operand"
  | .missingOperator => "missing_operator"
  | .unexpectedToken => "unexpected_token"
  | .nestingTooDeep => "nesting_too_deep"
  | .arityMismatch => "arity_mismatch"
  | .domainError => "domain_error"
  | .invariantViolation => "invariant_violation"
  | .invalidConfig => "invalid_config"

/-- The kind with a given code. -/
def ofCode? (code : String) : Option FaultKind := all.find? fun k => k.code = code

end FaultKind

/-- The stage that finds a fault. -/
inductive FaultCategory where
  /-- Any other fault. -/
  | general
  /-- The settings cannot be used. -/
  | settings
  /-- The text cannot be split into tokens. -/
  | lexical
  /-- The tokens do not form an expression. -/
  | syntactic
  /-- A call has the wrong number of arguments. -/
  | arity
  /-- A program cannot be run to its end. -/
  | evaluation
  /-- A program is malformed. -/
  | invariant
  deriving DecidableEq, Repr

/-- The kind that faults of a category have unless they say otherwise. -/
def FaultCategory.defaultKind : FaultCategory → FaultKind
  | .general => .invariantViolation
  | .settings => .invalidConfig
  | .lexical => .illegalCharacter
  | .syntactic => .unexpectedToken
  | .arity => .arityMismatch
  | .evaluation => .domainError
  | .invariant => .invariantViolation

/-- What an instruction lacks operands for, as the message names it. -/
inductive Demand where
  | negation
  | factorial
  | operation (symbol : String)
  | call (function : String)
  deriving DecidableEq, Repr

/-- What is wrong with a settings file; `path` is where it was looked for. -/
inductive SettingsCause where
  | missingFile (path : String)
  | unreadableFile (path : String)
  | notUtf8 (path : String)
  /-- The file is no TOML, for a reason that its reader gives. -/
  | notToml (path reason : String)
  | missingVersion
  | unsupportedVersion (version : Int)
  | notTable (name : String)
  | notInteger (name : String)
  | notString (name : String)
  | limitTooSmall
  | precisionOutOfRange
  | unknownLevel
  deriving DecidableEq, Repr

/-- **What is wrong.** -/
inductive Cause where
  /-- There is no expression at all. -/
  | missingInput
  /-- The expression is the empty text. -/
  | emptyInput
  | inputTooLong (length : Nat) (limit : Int)
  | illegalCharacter (text : String)
  /-- A blank follows the `e` of a number. -/
  | exponentSpacing
  | invalidNumber (literal : String)
  /-- A name that is no constant; `isFunction` holds when it names a function. -/
  | unknownVariable (name : String) (isFunction : Bool)
  | unknownFunction (name : String)
  | unmatchedClose
  | unclosedParen
  /-- Parentheses with nothing between them, those of a call when a function is named. -/
  | emptyParens (function : Option String)
  /-- The expression ends where an operand is due. -/
  | endsBeforeOperand
  /-- Another token stands where an operand is due. -/
  | notAnOperand (found : String)
  | missingOperator (found : String)
  | misplacedComma
  | nestingTooDeep (limit : Int)
  | arityMismatch (function : String) (expected received : Int)
  /-- An instruction finds fewer operands than it needs. -/
  | missingOperands (demand : Demand) (needed available : Nat)
  /-- A function refuses its arguments. -/
  | domain (function reason : String)
  /-- A call of a fixed-arity function carries another number of arguments. -/
  | unresolvedArity (function : String) (given takes : Nat)
  | unknownInstruction (shown : String)
  /-- A program does not end with exactly one value. -/
  | leftover (count : Nat)
  | settings (cause : SettingsCause)
  deriving DecidableEq, Repr

/-- The message of a settings cause. -/
def SettingsCause.message : SettingsCause → String
  | .missingFile path => "Missing shunt.toml at: " ++ path
  | .unreadableFile path => "Failed reading config file: " ++ path
  | .notUtf8 path => "Config is not valid UTF-8: " ++ path
  | .notToml path reason => "Invalid TOML in " ++ path ++ ": " ++ reason
  | .missingVersion => "Missing required `version = 1` in shunt.toml."
  | .unsupportedVersion v => "Unsupported config version: " ++ toString v ++ " (expected 1)."
  | .notTable name => "Expected [" ++ name ++ "] to be a table."
  | .notInteger name => "Expected " ++ name ++ " to be an integer."
  | .notString name => "Expected " ++ name ++ " to be a string."
  | .limitTooSmall => "Invalid config: limits must be >= 1."
  | .precisionOutOfRange => "Invalid config: output.precision must be between 1 and 17."
  | .unknownLevel =>
    "Invalid config: log.level must be one of DEBUG, INFO, WARNING, ERROR, CRITICAL."

/-- The message for missing operands. -/
def Demand.message (needed available : Nat) : Demand → String
  | .negation => "Unary '-' is missing its operand"
  | .factorial => "'!' is missing its operand"
  | .operation symbol =>
    if available = 1 then "Binary operator '" ++ symbol ++ "' is missing a right operand"
    else "Binary operator '" ++ symbol ++ "' is missing operands"
  | .call function =>
    function ++ "() is missing arguments, expected " ++ toString needed ++ " received " ++
      toString available

/-- The message for a call with too few or too many arguments. -/
def arityMessage (function : String) (expected received : Int) : String :=
  (if received < expected then "Lacking arguments" else "Too many arguments") ++ ": " ++ function ++
    "() expects " ++ toString expected ++ " arguments but received " ++ toString received

namespace Cause

/-- The text that tells a reader what is wrong, with every integer written out. -/
def message : Cause → String
  | .missingInput => "Expression cannot be null"
  | .emptyInput => "Expression cannot be empty"
  | .inputTooLong length limit =>
    "Expression is " ++ toString length ++ " characters long (limit " ++ toString limit ++ ")"
  | .illegalCharacter text => "Invalid character: '" ++ text ++ "'"
  | .exponentSpacing => "Scientific notation cannot contain spaces"
  | .invalidNumber literal => "Invalid number: '" ++ literal ++ "'"
  | .unknownVariable name isFunction =>
    "Unknown variable: '" ++ name ++ "'" ++
      (if isFunction then " (functions must be followed by '(')" else "")
  | .unknownFunction name => "Unknown function: '" ++ name ++ "'"
  | .unmatchedClose => "Closing a paren that was never opened"
  | .unclosedParen => "Opened paren is not closed"
  | .emptyParens none => "Empty parentheses"
  | .emptyParens (some function) => function ++ "() cannot be called without arguments"
  | .endsBeforeOperand => "Expected an operand but reached the end of the expression"
  | .notAnOperand found => "Expected an operand but found '" ++ found ++ "'"
  | .missingOperator found => "Expected an operator before '" ++ found ++ "'"
  | .misplacedComma => "',' is only allowed between function arguments"
  | .nestingTooDeep limit => "Expression nests deeper than " ++ toString limit ++ " levels"
  | .arityMismatch function expected received => arityMessage function expected received
  | .missingOperands demand needed available => demand.message needed available
  | .domain function reason => function ++ "() " ++ reason
  | .unresolvedArity function given takes =>
    function ++ "() was resolved with " ++ toString given ++ " arguments but takes " ++
      toString takes
  | .unknownInstruction shown => "Unknown instruction " ++ shown
  | .leftover count =>
    "Evaluation finished with " ++ toString count ++ " values on the stack, expected 1"
  | .settings cause => cause.message

/-- Whether the message **cannot be written**: a limit, the arity of a call or a version has too many
digits for it. The other integers that messages name count what is at hand, and so have few digits.
A limit is named once such a count exceeds it, so it can have too many digits only below zero. -/
def isOverlong : Cause → Bool
  | .inputTooLong _ limit => Reckoner.isOverlong (min limit 0)
  | .nestingTooDeep limit => Reckoner.isOverlong (min limit 0)
  | .missingOperands (.call _) needed _ => Reckoner.isOverlong needed
  | .unresolvedArity _ given _ => Reckoner.isOverlong given
  | .settings (.unsupportedVersion version) => Reckoner.isOverlong version
  | _ => false

/-- The code of the cause. -/
def kind : Cause → FaultKind
  | .missingInput => .emptyInput
  | .emptyInput => .emptyInput
  | .inputTooLong .. => .inputTooLong
  | .illegalCharacter _ => .illegalCharacter
  | .exponentSpacing => .scientificNotationSpacing
  | .invalidNumber _ => .invalidNumber
  | .unknownVariable .. => .unknownVariable
  | .unknownFunction _ => .unknownFunction
  | .unmatchedClose => .unmatchedCloseParen
  | .unclosedParen => .unclosedParen
  | .emptyParens _ => .emptyParens
  | .endsBeforeOperand => .missingOperand
  | .notAnOperand _ => .missingOperand
  | .missingOperator _ => .missingOperator
  | .misplacedComma => .unexpectedToken
  | .nestingTooDeep _ => .nestingTooDeep
  | .arityMismatch .. => .arityMismatch
  | .missingOperands .. => .missingOperand
  | .domain .. => .domainError
  | .unresolvedArity .. => .invariantViolation
  | .unknownInstruction _ => .invariantViolation
  | .leftover _ => .invariantViolation
  | .settings _ => .invalidConfig

/-- The stage that finds the cause. -/
def category : Cause → FaultCategory
  | .missingInput => .lexical
  | .emptyInput => .lexical
  | .inputTooLong .. => .lexical
  | .illegalCharacter _ => .lexical
  | .exponentSpacing => .lexical
  | .invalidNumber _ => .lexical
  | .unknownVariable .. => .syntactic
  | .unknownFunction _ => .syntactic
  | .unmatchedClose => .syntactic
  | .unclosedParen => .syntactic
  | .emptyParens _ => .syntactic
  | .endsBeforeOperand => .syntactic
  | .notAnOperand _ => .syntactic
  | .missingOperator _ => .syntactic
  | .misplacedComma => .syntactic
  | .nestingTooDeep _ => .syntactic
  | .arityMismatch .. => .arity
  | .missingOperands .. => .evaluation
  | .domain .. => .evaluation
  | .unresolvedArity .. => .invariant
  | .unknownInstruction _ => .invariant
  | .leftover _ => .invariant
  | .settings _ => .settings

end Cause

/-- A **fault**: a cause, the text it concerns, and the span in it. A fault without a place has
offset and length zero. -/
structure Fault where
  /-- What is wrong. -/
  cause : Cause
  /-- The whole text that the span is in; empty when there is none. -/
  source : String
  /-- The position of the first character at fault. -/
  offset : Int
  /-- The number of characters at fault. -/
  length : Int
  deriving DecidableEq, Repr

namespace Fault

/-- The code of a fault. -/
def kind (f : Fault) : FaultKind := f.cause.kind

/-- The stage that finds a fault. -/
def category (f : Fault) : FaultCategory := f.cause.category

/-- The message of a fault. -/
def message (f : Fault) : String := f.cause.message

/-- A fault that points nowhere. -/
def unplaced (cause : Cause) (source : String) : Fault := ⟨cause, source, 0, 0⟩

end Fault

end Reckoner
