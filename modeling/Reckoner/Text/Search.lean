/-! # Searching text

* **`containsText`** — whether one text occurs in another.
* **`joinLines`** — texts with a line break between each two. -/

namespace Reckoner

/-- Whether `needle` occurs in a text. -/
def containsText (needle : List Char) : List Char → Bool
  | [] => needle.isEmpty
  | c :: cs => needle.isPrefixOf (c :: cs) || containsText needle cs

/-- Texts on lines of their own. -/
def joinLines (lines : List String) : String := "\n".intercalate lines

end Reckoner
