/-! # Sets of code points

A set of characters is given by a table of inclusive ranges of code points.

* **`CodePoints`** — a list of ranges.
* **`CodePoints.mem`** — whether a character lies in one of them. -/

namespace Reckoner

/-- A **set of characters** as inclusive ranges of code points. -/
abbrev CodePoints := List (Nat × Nat)

/-- Whether a character lies in one of the ranges. -/
def CodePoints.mem (table : CodePoints) (c : Char) : Bool :=
  table.any fun (first, last) => first ≤ c.toNat && c.toNat ≤ last

/-- No character is in an empty table. -/
@[simp] theorem CodePoints.mem_nil (c : Char) : CodePoints.mem [] c = false := rfl

/-- A character is in a table when it is in the first range or in a later one. -/
@[simp] theorem CodePoints.mem_cons (first last : Nat) (table : CodePoints) (c : Char) :
    CodePoints.mem ((first, last) :: table) c =
      ((decide (first ≤ c.toNat) && decide (c.toNat ≤ last)) || CodePoints.mem table c) := rfl

end Reckoner
