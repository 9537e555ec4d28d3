import Reckoner.Text.DecimalDigit

/-! # Command-line arguments

What a command line asks for.

* **`Flag`, `OptionNames`** — the options and the spellings that a command knows.
* **`Word`, `classify`** — what an argument is: an operand, an option with what is attached to it, an
  unknown option, or the separator `--` after which all arguments are operands. A long option may be
  cut short as long as no other begins like it.
* **`Stop`** — why a command line asks for no work: help, the version, or misuse.
* **`readWords`** — the options and the operand of a command.
* **`chooseCommand`** — the command that the first operand names, and the arguments after it.
* **`Request`, `Request.ofArguments`** — the request that a command line makes. -/

namespace Reckoner

namespace Console

/-! ## Options -/

/-- What an option does. -/
inductive Flag where
  | help
  | version
  | root
  | config
  | json
  | verbose
  deriving DecidableEq, Repr

/-- Whether an option needs a value. -/
def Flag.takesValue : Flag → Bool
  | .root => true
  | .config => true
  | _ => false

/-- The options that a command knows, by their spellings. -/
abbrev OptionNames := List (List Char × Flag)

/-- The options before a command. -/
def topOptions : OptionNames :=
  [("-h".toList, .help), ("--help".toList, .help), ("--version".toList, .version)]

/-- The options of the commands that take an expression. -/
def expressionOptions : OptionNames :=
  [("-h".toList, .help), ("--help".toList, .help), ("--root".toList, .root),
    ("--config".toList, .config), ("--json".toList, .json), ("-v".toList, .verbose),
    ("--verbose".toList, .verbose)]

/-- The options between `mcp` and its own command. -/
def serverOptions : OptionNames := [("-h".toList, .help), ("--help".toList, .help)]

/-- The options of `mcp serve`. -/
def serveOptions : OptionNames :=
  [("-h".toList, .help), ("--help".toList, .help), ("--root".toList, .root)]

/-! ## Words -/

/-- What an argument is. -/
inductive Word where
  | operand (text : String)
  /-- The first `--`. -/
  | separator
  /-- An option with two hyphens, and the value after an equals sign. -/
  | long (flag : Flag) (value : Option String)
  /-- An option with one hyphen, and the letters of the options attached to it. -/
  | short (flag : Flag) (attached : List Char)
  /-- An option that the command does not know. -/
  | unknown
  deriving DecidableEq, Repr

/-- Why a command line asks for no work. -/
inductive Stop where
  | help
  | version
  /-- The command line is malformed. -/
  | misuse
  deriving DecidableEq, Repr

/-- Splits an argument at its first equals sign, if it has one. -/
def splitValue (cs : List Char) : List Char × Option String :=
  match cs.dropWhile (· ≠ '=') with
  | _ :: value => (cs.takeWhile (· ≠ '='), some (String.ofList value))
  | [] => (cs, none)

/-- Whether a text consists of digits, at least one. -/
def allDigits (cs : List Char) : Bool := !cs.isEmpty && cs.all isDecimalDigit

/-- Whether a text is a hyphen and a number without exponent that does not end in a point. A line
break may follow. -/
def isNegativeNumber : List Char → Bool
  | '-' :: cs =>
    let body := if cs.getLast? = some '\n' then cs.dropLast else cs
    allDigits body ||
      match body.dropWhile isDecimalDigit with
      | '.' :: fraction => allDigits fraction
      | _ => false
  | _ => false

/-- An argument that is no option of the command: it is an operand after all if it is a negative
number or holds a space. -/
def classifyUnknown (cs : List Char) : Word :=
  if isNegativeNumber cs || cs.contains ' ' then .operand (String.ofList cs) else .unknown

/-- What an argument with two hyphens is. -/
def classifyLong (names : OptionNames) (cs : List Char) : Except Stop Word :=
  let (name, value) := splitValue cs
  match names.lookup name with
  | some flag => .ok (.long flag value)
  | none =>
    match names.filter fun (spelling, _) => name.isPrefixOf spelling with
    | [] => .ok (classifyUnknown cs)
    | [(_, flag)] => .ok (.long flag value)
    | _ => .error .misuse

/-- The letters attached to an option with one hyphen; an equals sign before them is passed over. -/
def attachedLetters : List Char → List Char
  | '=' :: c :: rest => c :: rest
  | cs => cs

/-- **What an argument is** before a separator. -/
def classify (names : OptionNames) (argument : String) : Except Stop Word :=
  match argument.toList with
  | '-' :: '-' :: rest => classifyLong names ('-' :: '-' :: rest)
  | '-' :: c :: rest =>
    match names.lookup ['-', c] with
    | some flag => .ok (.short flag (attachedLetters rest))
    | none => .ok (classifyUnknown ('-' :: c :: rest))
  | _ => .ok (.operand argument)

/-- What the arguments of a command line are. -/
def classifyAll (names : OptionNames) : List String → Except Stop (List Word)
  | [] => .ok []
  | argument :: rest =>
    if argument = "--" then .ok (.separator :: rest.map .operand)
    else
      (classify names argument).bind fun word =>
        (classifyAll names rest).map fun words => word :: words

/-! ## Commands with options -/

/-- The options of a request. -/
structure Options where
  /-- The folder that holds the settings file; no folder if empty. -/
  root : String := ""
  /-- The settings file; no file if empty. -/
  config : String := ""
  /-- Whether the answer is written as JSON. -/
  json : Bool := false
  /-- Whether everything is logged. -/
  verbose : Bool := false
  deriving DecidableEq, Repr

/-- The options with one more without a value. -/
def Options.set (o : Options) : Flag → Except Stop Options
  | .help => .error .help
  | .version => .error .version
  | .json => .ok { o with json := true }
  | .verbose => .ok { o with verbose := true }
  | _ => .error .misuse

/-- The options with one more with a value. The separator stands for no value. -/
def Options.setValue (o : Options) (flag : Flag) (value : String) : Options :=
  let value := if value = "--" then "" else value
  match flag with
  | .root => { o with root := value }
  | .config => { o with config := value }
  | _ => o

/-- The options with several more, the first one first. -/
def Options.setAll (o : Options) (flags : List Flag) : Except Stop Options :=
  flags.foldlM Options.set o

/-- The options that letters stand for, if each of them stands for one. -/
def clusterFlags (names : OptionNames) (letters : List Char) : Option (List Flag) :=
  letters.mapM fun c => names.lookup ['-', c]

/-- What has been read of the words of a command. -/
structure Reading where
  /-- The options so far. -/
  options : Options := {}
  /-- The operand, once it has been read. -/
  operand : Option String := none
  /-- Whether there is a word that has no use. -/
  surplus : Bool := false
  deriving DecidableEq, Repr

/-- The options and the operand of a command that takes one if `wanted` holds. The separator goes
with the operand before or after it. -/
def readWords (names : OptionNames) (wanted : Bool) (r : Reading) : List Word → Except Stop Reading
  | [] => .ok r
  | .long flag value :: rest =>
    if flag.takesValue then
      match value, rest with
      | some v, rest => readWords names wanted { r with options := r.options.setValue flag v } rest
      | none, .operand v :: rest =>
        readWords names wanted { r with options := r.options.setValue flag v } rest
      | none, _ => .error .misuse
    else if value.isSome then .error .misuse
    else
      match r.options.set flag with
      | .ok options => readWords names wanted { r with options } rest
      | .error stop => .error stop
  | .short flag attached :: rest =>
    match clusterFlags names attached with
    | none => .error .misuse
    | some flags =>
      match r.options.setAll (flag :: flags) with
      | .ok options => readWords names wanted { r with options } rest
      | .error stop => .error stop
  | .unknown :: rest => readWords names wanted { r with surplus := true } rest
  | .operand text :: rest =>
    if wanted && r.operand.isNone then
      match rest with
      | .separator :: rest => readWords names wanted { r with operand := some text } rest
      | rest => readWords names wanted { r with operand := some text } rest
    else readWords names wanted { r with surplus := true } rest
  | .separator :: rest =>
    match wanted && r.operand.isNone, rest with
    | true, .operand text :: rest => readWords names wanted { r with operand := some text } rest
    | _, rest => readWords names wanted { r with surplus := true } rest

/-! ## Choosing a command -/

/-- A command that has been chosen among several. -/
structure Choice where
  /-- The name of the command. -/
  name : String
  /-- The arguments after the name. -/
  arguments : List String
  /-- Whether there is a word before the name that has no use. -/
  surplus : Bool
  deriving DecidableEq, Repr

/-- The command that the first operand names. Each word comes with the argument that it was made
from. -/
def chooseCommand (names : OptionNames) (commands : List String) (surplus : Bool) :
    List (String × Word) → Except Stop Choice
  | [] => .error .misuse
  | (_, .operand name) :: rest =>
    if commands.contains name then .ok ⟨name, rest.map Prod.fst, surplus⟩ else .error .misuse
  | (_, .separator) :: _ => .error .misuse
  | (_, .unknown) :: rest => chooseCommand names commands true rest
  | (_, .long flag value) :: rest =>
    if value.isSome then .error .misuse
    else
      match Options.set {} flag with
      | .ok _ => chooseCommand names commands surplus rest
      | .error stop => .error stop
  | (_, .short flag attached) :: rest =>
    match clusterFlags names attached with
    | none => .error .misuse
    | some flags =>
      match Options.setAll {} (flag :: flags) with
      | .ok _ => chooseCommand names commands surplus rest
      | .error stop => .error stop

/-- The command that some arguments name. -/
def Choice.ofArguments (names : OptionNames) (commands : List String) (arguments : List String) :
    Except Stop Choice :=
  (classifyAll names arguments).bind fun words =>
    chooseCommand names commands false (arguments.zip words)

/-! ## Requests -/

/-- What is done with an expression. -/
inductive Command where
  | eval
  | tokens
  | program
  deriving DecidableEq, Repr

/-- The name of a command. -/
def Command.name : Command → String
  | .eval => "eval"
  | .tokens => "tokens"
  | .program => "program"

/-- The command with a given name. -/
def Command.ofName? (name : String) : Option Command :=
  [Command.eval, .tokens, .program].find? fun c => c.name = name

/-- What a command line asks for. -/
inductive Request where
  /-- Work on an expression. -/
  | expression (command : Command) (options : Options) (text : String)
  /-- A server that answers requests from the given folder. -/
  | serve (root : String)
  deriving DecidableEq, Repr

/-- Refuses words that have no use. -/
def refuseSurplus (surplus : Bool) : Except Stop Unit := if surplus then .error .misuse else .ok ()

/-- A request for work on an expression. -/
def expressionRequest (command : Command) (choice : Choice) : Except Stop Request := do
  let words ← classifyAll expressionOptions choice.arguments
  let reading ← readWords expressionOptions true {} words
  match reading.operand with
  | none => .error .misuse
  | some text =>
    refuseSurplus (choice.surplus || reading.surplus)
    return .expression command reading.options text

/-- A request for a server. -/
def serverRequest (choice : Choice) : Except Stop Request := do
  let inner ← Choice.ofArguments serverOptions ["serve"] choice.arguments
  let words ← classifyAll serveOptions inner.arguments
  let reading ← readWords serveOptions false {} words
  refuseSurplus (choice.surplus || inner.surplus || reading.surplus)
  return .serve reading.options.root

/-- **The request that a command line makes.** -/
def Request.ofArguments (arguments : List String) : Except Stop Request := do
  let choice ← Choice.ofArguments topOptions ["eval", "tokens", "program", "mcp"] arguments
  match Command.ofName? choice.name with
  | some command => expressionRequest command choice
  | none => serverRequest choice

end Console

end Reckoner
