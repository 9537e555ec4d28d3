import Reckoner.Binary64.Arithmetic
import Reckoner.Binary64.Basic
import Reckoner.Binary64.Decimal
import Reckoner.Binary64.Text
import Reckoner.Console.Arguments
import Reckoner.Console.Response
import Reckoner.Console.Tool
import Reckoner.Document
import Reckoner.Elementary.Circular
import Reckoner.Elementary.Enclosure
import Reckoner.Elementary.Exponential
import Reckoner.Elementary.Library
import Reckoner.Elementary.Power
import Reckoner.Elementary.Series
import Reckoner.Evaluate
import Reckoner.Excess
import Reckoner.Fault
import Reckoner.Fault.Record
import Reckoner.Fault.Report
import Reckoner.Files.Path
import Reckoner.Files.Tree
import Reckoner.Json.Printer
import Reckoner.Json.Reader
import Reckoner.Main
import Reckoner.Postfix.Assembler
import Reckoner.Postfix.Machine
import Reckoner.Postfix.Program
import Reckoner.Proofs.Binary64.Digits
import Reckoner.Proofs.Binary64.Finite
import Reckoner.Proofs.Binary64.Integers
import Reckoner.Proofs.Binary64.Nearest
import Reckoner.Proofs.Binary64.Rounding
import Reckoner.Proofs.Binary64.Text
import Reckoner.Proofs.Binary64.Width
import Reckoner.Proofs.Console.Agreement
import Reckoner.Proofs.Console.Arguments
import Reckoner.Proofs.Console.Outcome
import Reckoner.Proofs.Console.Responses
import Reckoner.Proofs.Console.Tools
import Reckoner.Proofs.Evaluate.Containment
import Reckoner.Proofs.Evaluate.Counting
import Reckoner.Proofs.Evaluate.Display
import Reckoner.Proofs.Evaluate.LetterCase
import Reckoner.Proofs.Evaluate.Reports
import Reckoner.Proofs.Evaluate.Reuse
import Reckoner.Proofs.Evaluate.Spans
import Reckoner.Proofs.Expression.Brackets
import Reckoner.Proofs.Expression.Context
import Reckoner.Proofs.Expression.Grammar
import Reckoner.Proofs.Expression.Marks
import Reckoner.Proofs.Expression.Operand
import Reckoner.Proofs.Expression.Precedence
import Reckoner.Proofs.Expression.Signs
import Reckoner.Proofs.Expression.Spelling
import Reckoner.Proofs.Expression.Tree
import Reckoner.Proofs.Expression.Words
import Reckoner.Proofs.Fault.Marker
import Reckoner.Proofs.Files.Addition
import Reckoner.Proofs.Files.Resolution
import Reckoner.Proofs.Files.Walk
import Reckoner.Proofs.Json.Numbers
import Reckoner.Proofs.Json.RoundTrip
import Reckoner.Proofs.Json.Strings
import Reckoner.Proofs.Postfix.Acceptance
import Reckoner.Proofs.Postfix.Arrangement
import Reckoner.Proofs.Postfix.Brackets
import Reckoner.Proofs.Postfix.CompoundSigns
import Reckoner.Proofs.Postfix.Decompile
import Reckoner.Proofs.Postfix.Depth
import Reckoner.Proofs.Postfix.Execution
import Reckoner.Proofs.Postfix.Feed
import Reckoner.Proofs.Postfix.FirstFault
import Reckoner.Proofs.Postfix.Frame
import Reckoner.Proofs.Postfix.Guards
import Reckoner.Proofs.Postfix.Height
import Reckoner.Proofs.Postfix.Indifference
import Reckoner.Proofs.Postfix.Layout
import Reckoner.Proofs.Postfix.Likeness
import Reckoner.Proofs.Postfix.Passes
import Reckoner.Proofs.Postfix.Places
import Reckoner.Proofs.Postfix.Recognition
import Reckoner.Proofs.Postfix.Reporting
import Reckoner.Proofs.Postfix.Sources
import Reckoner.Proofs.Postfix.Spans
import Reckoner.Proofs.Postfix.Standstill
import Reckoner.Proofs.Postfix.Supply
import Reckoner.Proofs.Postfix.Text
import Reckoner.Proofs.Postfix.Transition
import Reckoner.Proofs.Postfix.Translation
import Reckoner.Proofs.Settings.Checks
import Reckoner.Proofs.Settings.Discovery
import Reckoner.Proofs.Settings.Loading
import Reckoner.Proofs.Settings.Nearest
import Reckoner.Proofs.Symbol.Checked
import Reckoner.Proofs.Symbol.Factorial
import Reckoner.Proofs.Symbol.LetterCase
import Reckoner.Proofs.Symbol.Magnitude
import Reckoner.Proofs.Symbol.NaN
import Reckoner.Proofs.Symbol.Names
import Reckoner.Proofs.Symbol.Numerics
import Reckoner.Proofs.Symbol.Shifts
import Reckoner.Proofs.Token.Comma
import Reckoner.Proofs.Token.Insertion
import Reckoner.Proofs.Token.LetterCase
import Reckoner.Proofs.Token.MalformedNumber
import Reckoner.Proofs.Token.MaximalMunch
import Reckoner.Proofs.Token.Numeral
import Reckoner.Proofs.Token.Relocation
import Reckoner.Proofs.Token.Sequence
import Reckoner.Proofs.Token.Spans
import Reckoner.Proofs.Token.Spelling
import Reckoner.Proofs.Token.Tiling
import Reckoner.Session
import Reckoner.Settings
import Reckoner.Settings.Discovery
import Reckoner.Symbol.Function
import Reckoner.Symbol.Lookup
import Reckoner.Symbol.Operator
import Reckoner.Text.Blank
import Reckoner.Text.CodePoints
import Reckoner.Text.DecimalDigit
import Reckoner.Text.Hexadecimal
import Reckoner.Text.Lowercase
import Reckoner.Text.Printable
import Reckoner.Text.Quoted
import Reckoner.Text.Search
import Reckoner.Token
import Reckoner.Token.Cursor
import Reckoner.Token.Scan
import Reckoner.Toml.Lexical
import Reckoner.Toml.Outline
import Reckoner.Toml.Reader
import Reckoner.Toml.Scalar
import Reckoner.Wording
