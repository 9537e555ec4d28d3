import Reckoner.Proofs.Expression.Tree
import Reckoner.Proofs.Postfix.Height

/-! # The tree of a program

Instructions that find their operands, counting only, are the postorder of trees: growing along them
loses nothing.

* **`Tree.postorders_grow`** — one instruction that finds its operands grows a tree of them.
* **`Tree.postorders_foldl_grow`** — so do several.
* **`exists_tree_of_height`** — instructions that leave one value grow one tree. -/

namespace Reckoner

namespace Tree

/-- **One instruction** that finds its operands comes after the finished trees, which are the latest
first. -/
theorem postorders_grow {i : Instruction} (known : i.Resolved) {ts : List Tree}
    (enough : i.operands ≤ ts.length) :
    postorders (grow ts i).reverse = postorders ts.reverse ++ [i] ∧
      (grow ts i).length = ts.length - i.operands + 1 := by
  cases i with
  | unknown shown => exact known.elim
  | number value span =>
    rw [grow, List.reverse_cons, postorders_append, postorders_singleton, postorder]
    exact ⟨rfl, rfl⟩
  | negate offset =>
    cases ts with
    | nil => exact absurd enough (Nat.not_succ_le_zero 0)
    | cons t ts =>
      rw [grow, List.reverse_cons, List.reverse_cons, postorders_append, postorders_append,
        postorders_singleton, postorders_singleton, postorder, List.append_assoc]
      exact ⟨rfl, rfl⟩
  | factorial offset =>
    cases ts with
    | nil => exact absurd enough (Nat.not_succ_le_zero 0)
    | cons t ts =>
      rw [grow, List.reverse_cons, List.reverse_cons, postorders_append, postorders_append,
        postorders_singleton, postorders_singleton, postorder, List.append_assoc]
      exact ⟨rfl, rfl⟩
  | operation op offset =>
    match ts, enough with
    | r :: l :: ts, _ =>
      rw [grow, List.reverse_cons, List.reverse_cons, List.reverse_cons, postorders_append,
        postorders_append, postorders_append, postorders_singleton, postorders_singleton,
        postorders_singleton, postorder, List.append_assoc, List.append_assoc]
      exact ⟨rfl, rfl⟩
    | [_], enough => exact absurd (Nat.le_of_succ_le_succ enough) (Nat.not_succ_le_zero 0)
    | [], enough => exact absurd enough (Nat.not_succ_le_zero 1)
  | call f arity span =>
    have henough : arity ≤ ts.length := enough
    have hlength : (ts.take arity).reverse.length = arity := by
      rw [List.length_reverse, List.length_take, Nat.min_eq_left henough]
    -- the trees on top become the arguments
    have hsplit : postorders ts.reverse =
        postorders (ts.drop arity).reverse ++ postorders (ts.take arity).reverse := by
      rw [← postorders_append, ← List.reverse_append, List.take_append_drop]
    rw [grow, List.reverse_cons, postorders_append, postorders_singleton, postorder, hlength, hsplit,
      List.append_assoc, List.length_cons, List.length_drop]
    exact ⟨rfl, rfl⟩

/-- **Instructions that find their operands** come after the finished trees. -/
theorem postorders_foldl_grow {is : List Instruction} (known : ∀ i ∈ is, i.Resolved)
    {ts : List Tree} {n : Nat} (height : height? is ts.length = some n) :
    postorders (is.foldl grow ts).reverse = postorders ts.reverse ++ is ∧
      (is.foldl grow ts).length = n := by
  induction is generalizing ts with
  | nil =>
    cases height
    exact ⟨(List.append_nil _).symm, rfl⟩
  | cons i is ih =>
    obtain ⟨hi, his⟩ := List.forall_mem_cons.mp known
    obtain ⟨enough, hrest⟩ := height?_cons_eq_some_iff.mp height
    obtain ⟨hpostorders, hlength⟩ := postorders_grow hi enough
    rw [← hlength] at hrest
    obtain ⟨hall, hcount⟩ := ih his hrest
    rw [List.foldl_cons, hall, hpostorders, List.append_assoc]
    exact ⟨rfl, hcount⟩

end Tree

/-- **Instructions that leave one value grow one tree**, and are its postorder. -/
theorem exists_tree_of_height {is : List Instruction} (known : ∀ i ∈ is, i.Resolved)
    (height : height? is 0 = some 1) :
    ∃ tree : Tree, is.foldl Tree.grow [] = [tree] ∧ tree.postorder = is := by
  have hempty : height? is ([] : List Tree).length = some 1 := height
  obtain ⟨hpostorders, hlength⟩ := Tree.postorders_foldl_grow known hempty
  obtain ⟨tree, htree⟩ := List.length_eq_one_iff.mp hlength
  rw [htree] at hpostorders
  exact ⟨tree, htree, by rwa [List.reverse_singleton, Tree.postorders_singleton] at hpostorders⟩

end Reckoner
