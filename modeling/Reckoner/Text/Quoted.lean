import Reckoner.Text.Hexadecimal
import Reckoner.Text.Printable

/-! # Quoted text

How a text is quoted in messages for people who debug: between single quotes, or between double
quotes when it holds a single quote and no double one, with escapes for what cannot be shown.

* **`escapeIn`** — one character between given quotes.
* **`quoted`** — the quoted form of a text. -/

namespace Reckoner

/-- A character as it is written between the given quotes: the quote and the backslash are escaped,
tab, newline and carriage return have short escapes, and other unprintable characters are given by
their code points. -/
def escapeIn (quote c : Char) : List Char :=
  if c = quote ∨ c = '\\' then ['\\', c]
  else if c = '\t' then ['\\', 't']
  else if c = '\n' then ['\\', 'n']
  else if c = '\r' then ['\\', 'r']
  else if isPrintable c then [c]
  else if c.toNat < 0x100 then '\\' :: 'x' :: hexDigits 2 c.toNat
  else if c.toNat < 0x10000 then '\\' :: 'u' :: hexDigits 4 c.toNat
  else '\\' :: 'U' :: hexDigits 8 c.toNat

/-- The **quoted form** of a text. -/
def quoted (s : String) : String :=
  let cs := s.toList
  let quote := if cs.contains '\'' && !cs.contains '"' then '"' else '\''
  String.ofList ([quote] ++ cs.flatMap (escapeIn quote) ++ [quote])

end Reckoner
