import Reckoner.Console.Arguments
import Reckoner.Fault.Record
import Reckoner.Json.Printer
import Reckoner.Settings.Discovery

/-! # Answering the command line

* **`Response`** — what a command writes and the exit code it ends with.
* **`Finding`** — what a command finds out about an expression, as data and as text.
* **`inspect`** — the finding of a command, and the messages that are logged on the way.
* **`Interruption`** — why a command ends without a response.
* **`answerExpression`, `Request.answer`, `respond`** — the response to an expression, to a request,
  and to the arguments of a command line. -/

namespace Reckoner

namespace Console

/-- What a command writes and how it ends. -/
structure Response where
  /-- The exit code. -/
  code : Nat := 0
  /-- What is written as the result. -/
  output : String := ""
  /-- What is written about errors and for the log. -/
  errors : String := ""
  deriving DecidableEq, Repr

/-- Why a command ends without a response. -/
inductive Interruption where
  | path (fault : PathFault)
  /-- Something is too large to be read or written. -/
  | excess (excess : Excess)
  /-- The first or last of no arguments is asked for. -/
  | noElement
  deriving DecidableEq, Repr

/-- The text that says why a command ends without a response. -/
def Interruption.message : Interruption → String
  | .path fault => fault.message
  | .excess e => e.message
  | .noElement => Rejection.noElement.message

/-! ## Findings -/

/-- What a command finds out about an expression. -/
structure Finding where
  /-- The finding as entries of a table. -/
  entries : List (String × Document)
  /-- The finding as lines of text. -/
  text : String

/-- What a command finds out, and the messages that it logs. -/
structure Inspection where
  /-- The messages, in order. -/
  log : List String
  /-- The finding, or why there is none. -/
  result : Except Failure Finding

/-- A line of text. -/
def line (s : String) : String := s ++ "\n"

/-- A message for the log, from the part of the program with the given name. -/
def logMessage (part message : String) : String := "DEBUG shunt." ++ part ++ ": " ++ message

/-- The message that an expression has been split into tokens. -/
def lexedMessage (source : String) (count : Nat) : String :=
  logMessage "lexer" ("Lexed " ++ toString count ++ " tokens from " ++ quoted source)

/-- The message that an expression has been compiled. -/
def parsedMessage (p : Program) : String :=
  logMessage "parser" ("Parsed " ++ quoted p.source ++ " into " ++ toString p.instructions.length ++
    " instructions: " ++ p.text)

/-- The message that a program has been run. -/
def evaluatedMessage (p : Program) (value : Binary64) : String :=
  logMessage "evaluator" ("Evaluated " ++ quoted p.source ++ " -> " ++ value.shortest)

/-- A number as data: a number if it is finite, and its text otherwise. -/
def valueDocument (x : Binary64) : Document := if x.isFinite then .number x else .text x.shortest

/-- The value of an expression as a finding. -/
def valueFinding (precision : Nat) (value : Binary64) : Finding where
  entries := [("value", valueDocument value), ("text", .text (value.display precision))]
  text := line (value.display precision)

/-- A text with blanks before it up to a width. -/
def alignRight (width : Nat) (s : String) : String :=
  String.ofList (List.replicate (width - s.length) ' ') ++ s

/-- A text with blanks after it up to a width. -/
def alignLeft (width : Nat) (s : String) : String :=
  s ++ String.ofList (List.replicate (width - s.length) ' ')

/-- A token as data. -/
def tokenDocument (t : Token) : Document :=
  .table [("kind", .text t.kind.name), ("literal", .text t.literal), ("offset", .integer t.offset)]

/-- A token as a line of text; the end token has none. -/
def tokenLine (t : Token) : String :=
  if t.kind = .finish then ""
  else line (alignRight 4 (toString t.offset) ++ "  " ++ alignLeft 15 t.kind.name ++ " " ++ t.literal)

/-- The tokens of an expression as a finding. -/
def tokensFinding (tokens : List Token) : Finding where
  entries := [("tokens", .list (tokens.map tokenDocument))]
  text := String.join (tokens.map tokenLine)

/-- The program of an expression as a finding. The arities in it count arguments of the expression, and
so can be written. -/
def programFinding (p : Program) : Finding where
  entries := [("instructions", .list (p.instructions.map fun i => .text i.text))]
  text := line p.text

/-- **What a command finds out about an expression.** -/
def inspect [Numerics] (settings : Settings) (source : String) : Command → Inspection
  | .tokens =>
    match tokenize (some source) with
    | .error f => ⟨[], .error (.ofFault f)⟩
    | .ok tokens => ⟨[lexedMessage source tokens.length], .ok (tokensFinding tokens)⟩
  | .program =>
    match compile settings.limits (some source) with
    | .error e => ⟨[], .error e⟩
    | .ok p => ⟨[parsedMessage p], .ok (programFinding p)⟩
  | .eval =>
    match compile settings.limits (some source) with
    | .error e => ⟨[], .error e⟩
    | .ok p =>
      match p.run with
      | .error e => ⟨[parsedMessage p], .error e⟩
      | .ok value =>
        ⟨[parsedMessage p, evaluatedMessage p value], .ok (valueFinding settings.precision value)⟩

/-! ## Responses -/

/-- A finding as it is written. -/
def findingText (command : Command) (options : Options) (source : String) (f : Finding) : String :=
  if options.json then
    line (Json.pretty (.table ([("command", .text command.name), ("ok", .boolean true),
      ("expression", .text source)] ++ f.entries)))
  else f.text

/-- A fault as data, with the command and the expression that it comes from. -/
def faultDocument (command : Command) (source : String) (d : Diagnostic) : Document :=
  .table [("command", .text command.name), ("ok", .boolean false), ("expression", .text source),
    ("error", d.record), ("hint", .ofText? d.hint)]

/-- The response for a fault, after the log. -/
def faultResponse (command : Command) (options : Options) (source log : String) (f : Fault) :
    Response :=
  let d := f.diagnostic
  if options.json then
    ⟨d.category.exitCode, line (Json.pretty (faultDocument command source d)), log⟩
  else ⟨d.category.exitCode, "", log ++ line d.report⟩

/-- The path that an option names, without steps back; none for an empty text. -/
def optionPath (current : Path) (s : String) : Except PathFault (Option Path) :=
  if s = "" then .ok none else ((Path.ofText current s).resolve).map some

/-- The settings in force for the options of a command. -/
def settingsFor (w : Wording) (t : FileTree) (current : Path) (options : Options) :
    Except LoadFailure Settings :=
  match optionPath current options.root, optionPath current options.config with
  | .error e, _ => .error (.path e)
  | _, .error e => .error (.path e)
  | .ok folder, .ok file => loadSettings w t current folder file

/-- The messages that are logged. All of them are of the least grave level. -/
def logText (options : Options) (settings : Settings) (messages : List String) : String :=
  if options.verbose || settings.level = .debug then String.join (messages.map line) else ""

/-- The **response to a command on an expression**. -/
def answerExpression [Numerics] (w : Wording) (t : FileTree) (current : Path) (command : Command)
    (options : Options) (source : String) : Except Interruption Response :=
  match settingsFor w t current options with
  | .error (.path e) => .error (.path e)
  | .error (.excess e) => .error (.excess e)
  | .error (.cause c) => .ok (faultResponse command options source "" (.unplaced (.settings c) ""))
  | .ok settings =>
    let found := inspect settings source command
    let log := logText options settings found.log
    match found.result with
    | .ok f => .ok ⟨0, findingText command options source f, log⟩
    | .error (.fault f) => .ok (faultResponse command options source log f)
    | .error (.excess e) => .error (.excess e)
    | .error .noElement => .error .noElement

/-- The message that there is no server. -/
def noServerMessage : String :=
  "error: fastmcp is not installed. Install it with: pip install 'shunt[mcp]'"

/-- The response to a request for a server, which is not part of this program. The folder must be
one. -/
def answerServe (t : FileTree) (current : Path) (root : String) : Except Interruption Response :=
  let refusal : Response := ⟨2, "", line noServerMessage⟩
  match optionPath current root with
  | .error e => .error (.path e)
  | .ok none => .ok refusal
  | .ok (some folder) =>
    match t.checkFolder folder with
    | .ok () => .ok refusal
    | .error e => .error (.path e)

/-- The response to a request. -/
def Request.answer [Numerics] (w : Wording) (t : FileTree) (current : Path) :
    Request → Except Interruption Response
  | .expression command options source => answerExpression w t current command options source
  | .serve root => answerServe t current root

/-- The name and the number of the program's version. -/
def versionText : String := "shunt 0.1.0"

/-- The response to a command line that asks for no work. -/
def Stop.response (w : Wording) (arguments : List String) : Stop → Response
  | .help => ⟨0, w.help arguments, ""⟩
  | .version => ⟨0, line versionText, ""⟩
  | .misuse => ⟨2, "", w.misuse arguments⟩

/-- **The response to the arguments of a command line**, in a file tree with a current folder. -/
def respond [Numerics] (w : Wording) (t : FileTree) (current : Path) (arguments : List String) :
    Except Interruption Response :=
  match Request.ofArguments arguments with
  | .error stop => .ok (stop.response w arguments)
  | .ok request => request.answer w t current

end Console

end Reckoner
