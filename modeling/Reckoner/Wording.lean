/-! # Texts from elsewhere

Some texts are left to others: the reason why a text is not TOML comes from the reader of that format, and
what is said about the command line itself from the reader of its arguments.

* **`Wording`** — what they say.
* **`Wording.plain`** — a wording for this program on its own. -/

namespace Reckoner

/-- A **wording** of the texts that come from elsewhere. -/
structure Wording where
  /-- Why a text is not TOML. -/
  notToml : String → String
  /-- The help for a command line that asks for it. -/
  help : List String → String
  /-- What is wrong with a command line that is malformed. -/
  misuse : List String → String

/-- How the program is called. -/
def usageText : String :=
  "usage: shunt [-h] [--version] \x7beval,tokens,program,mcp\x7d ...\n" ++
  "       shunt \x7beval,tokens,program\x7d [-h] [--root ROOT] [--config CONFIG] [--json] [-v] " ++
    "expression\n" ++
  "       shunt mcp [-h] serve [-h] [--root ROOT]\n"

/-- A plain wording: the same reason for every text, and how the program is called for every command
line. -/
def Wording.plain : Wording where
  notToml := fun _ => "the text is malformed"
  help := fun _ => usageText
  misuse := fun _ => usageText

end Reckoner
