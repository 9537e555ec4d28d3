import Reckoner.Proofs.Expression.Spelling
import Reckoner.Proofs.Postfix.Acceptance
import Reckoner.Proofs.Postfix.Decompile

/-! # Every program has a source

Instructions that could come from a text do come from one: the text of the tree that they grow.

* **`WellFormed`** — instructions that an expression can have and that leave one value.
* **`decompile`** — a text for well-formed instructions.
* **`assemble_of_passes`** — the program of a text whose tokens are known.
* **`Tree.assemble_spelling`** — the program of the text of a tree.
* **`assemble_decompile`** — the program of a text that was made from instructions has these
  instructions. -/

namespace Reckoner

/-- Instructions are **well formed** when an expression can have each of them and they leave one
value, counting operands only. -/
structure WellFormed (is : List Instruction) : Prop where
  /-- Numbers have no sign, and calls have as many arguments as their functions take. -/
  spellable : ∀ i ∈ is, i.Spellable
  /-- No instruction lacks operands, and one value is left. -/
  height : height? is 0 = some 1

/-- The **text of instructions**: that of the tree that they grow. -/
def decompile (is : List Instruction) : String :=
  String.ofList (Tree.spellings (is.foldl Tree.grow []).reverse)

/-- A text whose tokens are read one after the other **has the postorder of their tree** for its
program. -/
theorem assemble_of_passes {s : String} {ts : List Token} {tree : Tree} {c : Cursor} {maxDepth : Int}
    (nonempty : s ≠ "") (passes : (Cursor.atStart s).Passes ts c) (finished : c.rest = [])
    (reads : Reads (.level 0) ts [tree]) (nests : NestsWithin maxDepth ts) :
    assemble (some s) maxDepth = .ok ⟨s, tree.postorder⟩ := by
  obtain ⟨last, c', hread, hlast⟩ := Cursor.next_of_rest_nil finished
  exact assemble_of_reads (tokenize_eq_ok_iff.mpr ⟨s, c', rfl, nonempty, passes.yields hread hlast⟩)
    hlast reads nests

/-- **The text of a tree has a program**, whose instructions are the postorder of the tree but for
their places. -/
theorem Tree.assemble_spelling {tree : Tree} (h : ∀ i ∈ tree.postorder, i.Spellable) :
    ∃ depth : Int, ∀ maxDepth, depth ≤ maxDepth →
      ∃ p, assemble (some (String.ofList tree.spelling)) maxDepth = .ok p ∧
        p.instructions.map Instruction.unplaced = tree.postorder.map Instruction.unplaced := by
  -- the tokens of the text, and the tree that they are read for
  have hstart : (Cursor.atStart (String.ofList tree.spelling)).rest = tree.spelling ++ [] := by
    rw [List.append_nil]
    exact String.toList_ofList
  obtain ⟨ts, tree', c, hpasses, hrest, hreads, his⟩ :=
    (tree.spells_spelling h).read_tree hstart (fun x hx => absurd hx (Option.not_mem_none x))
  have hne : String.ofList tree.spelling ≠ "" := fun hempty =>
    (Tree.beginsAlone_spelling h).ne_nil (String.ofList_eq_empty_iff.mp hempty)
  have hexpression : Reads (.level 0) ts [tree'] :=
    .level_of_le (Nat.zero_le 4) (.operand (.factor (.primary hreads)))
  refine ⟨ts.length, fun maxDepth hdepth => ?_⟩
  have hnests := nestsWithin_of_length_le hdepth
  exact ⟨_, assemble_of_passes hne hpasses hrest hexpression hnests, his⟩

/-- The calls of a well-formed program are resolved. -/
theorem WellFormed.resolved {is : List Instruction} (h : WellFormed is) :
    ∀ i ∈ is, i.Resolved := by
  intro i hi
  have hspellable := h.spellable i hi
  cases i with
  | number value span => trivial
  | _ => exact hspellable

/-- **Every well-formed program has a source.** For every limit that is large enough, the text of
well-formed instructions has a program with the same instructions in the same order, but for their
places. -/
theorem assemble_decompile {is : List Instruction} (h : WellFormed is) :
    ∃ depth : Int, ∀ maxDepth, depth ≤ maxDepth →
      ∃ p, assemble (some (decompile is)) maxDepth = .ok p ∧
        p.instructions.map Instruction.unplaced = is.map Instruction.unplaced := by
  obtain ⟨tree, hgrown, rfl⟩ := exists_tree_of_height h.resolved h.height
  have htext : decompile tree.postorder = String.ofList tree.spelling := by
    rw [decompile, hgrown]
    rfl
  rw [htext]
  exact Tree.assemble_spelling h.spellable

/-- A call with an infinite argument and a signed factorial. -/
theorem assemble_decompile_signed_factorial :
    ∃ is : List Instruction, WellFormed is ∧ decompile is = "max(1e999,(-(2.0!)))" ∧
      ∃ depth : Int, ∀ maxDepth, depth ≤ maxDepth →
        ∃ p, assemble (some (decompile is)) maxDepth = .ok p ∧
          p.instructions.map Instruction.unplaced = is.map Instruction.unplaced := by
  have hformed : WellFormed [.number (.infinity false) ⟨0, 0⟩, .number 2 ⟨0, 0⟩, .factorial 0,
      .negate 0, .call (.reducer .max) 2 ⟨0, 0⟩] := by
    refine ⟨?_, by decide⟩
    simp only [List.forall_mem_cons, Instruction.Spellable, Instruction.Resolved]
    exact ⟨by decide, by decide, trivial, trivial, ⟨by decide, fun n hn => nomatch hn⟩, by simp⟩
  exact ⟨_, hformed, by decide +kernel, assemble_decompile hformed⟩

end Reckoner
