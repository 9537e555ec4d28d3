import Reckoner.Symbol.Function
import Reckoner.Text.Lowercase

/-! # Looking up names

Names of constants and functions are read in any case and may carry one namespace.

* **`canonicalName`** — the name in lower case without a leading `math.` or `ienumerable.`.
* **`constant?`, `function?`** — what a name stands for, if anything. -/

namespace Reckoner

/-- The namespaces that a name may carry. -/
def namespaces : List (List Char) := ["math.".toList, "ienumerable.".toList]

/-- A text without the first namespace that it begins with. -/
def dropNamespace (cs : List Char) : List Char :=
  match namespaces.find? fun ns => ns.isPrefixOf cs with
  | some ns => cs.drop ns.length
  | none => cs

/-- The form of a name under which it is looked up. -/
def canonicalName (symbol : String) : String :=
  String.ofList (dropNamespace (lowercase symbol).toList)

/-- The ranks of the constants by name: the numbers nearest to `π`, `e` and `2π`. -/
def constantRanks : List (String × Nat) :=
  [("pi", 0x400921fb54442d18), ("e", 0x4005bf0a8b145769), ("tau", 0x401921fb54442d18)]

/-- The constant that a name stands for. -/
def constant? (symbol : String) : Option Binary64 :=
  (constantRanks.lookup (canonicalName symbol)).map (Binary64.ofRank false)

/-- The function that a name stands for. -/
def function? (symbol : String) : Option Function :=
  let name := canonicalName symbol
  Function.all.find? fun f => f.name = name

end Reckoner
