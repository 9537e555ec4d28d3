import Reckoner.Elementary.Library
import Reckoner.Proofs.Postfix.Acceptance

/-! # Running a postorder

Running the postorder of a tree pushes the value of the tree, or stops with the failure that the
recursion meets first.

* **`Tree.Resolved`** — every call has one argument at least, and as many as its function takes; so
  do the calls of every tree that tokens mean (`Reads.resolved`).
* **`Tree.execute_postorder`** — the postorder of such a tree computes its value.
* **`assemble_postorder`** — what assembling an expression makes of its tree. -/

namespace Reckoner

namespace Tree

/-! ## Resolved calls -/

mutual

/-- Whether **every call** in a tree has one argument at least, and as many as its function takes. -/
def Resolved : Tree → Prop
  | .number .. => True
  | .negate _ t => t.Resolved
  | .operation _ _ l r => l.Resolved ∧ r.Resolved
  | .factorial _ t => t.Resolved
  | .call f _ ts => ts ≠ [] ∧ (∀ n, f.arity? = some n → ts.length = n) ∧ AllResolved ts

/-- Whether every call in several trees is resolved. -/
def AllResolved : List Tree → Prop
  | [] => True
  | t :: ts => t.Resolved ∧ AllResolved ts

end

/-- Trees are resolved when both parts are. -/
@[simp] theorem allResolved_append {ts us : List Tree} :
    AllResolved (ts ++ us) ↔ AllResolved ts ∧ AllResolved us := by
  induction ts with
  | nil => simp [AllResolved]
  | cons t ts ih => rw [List.cons_append, AllResolved, AllResolved, ih, and_assoc]

/-- One tree among no others. -/
@[simp] theorem allResolved_singleton {t : Tree} : AllResolved [t] ↔ t.Resolved := by
  rw [AllResolved, AllResolved, and_true]

end Tree

/-- **The calls that tokens mean are resolved.** -/
theorem Reads.resolved {s : Stratum} {ts : List Token} {trees : List Tree} (h : Reads s ts trees) :
    trees ≠ [] ∧ Tree.AllResolved trees := by
  induction h with
  | number kind => simp [Tree.AllResolved, Tree.Resolved]
  | constant kind known => simp [Tree.AllResolved, Tree.Resolved]
  | call kind known opens inner closes arity ih =>
    refine ⟨List.cons_ne_nil _ _, ?_⟩
    rw [Tree.allResolved_singleton, Tree.Resolved]
    exact ⟨ih.1, arity, ih.2⟩
  | operation left kind level right ihl ihr =>
    rw [Tree.allResolved_singleton] at ihl ihr ⊢
    exact ⟨List.cons_ne_nil _ _, ihl.2, ihr.2⟩
  | comma left kind right ihl ihr =>
    refine ⟨List.append_ne_nil_of_left_ne_nil ihl.1 _, ?_⟩
    rw [Tree.allResolved_append]
    exact ⟨ihl.2, ihr.2⟩
  | negation kind inner ih =>
    rw [Tree.allResolved_singleton] at ih ⊢
    exact ⟨List.cons_ne_nil _ _, ih.2⟩
  | factorial inner kind ih =>
    rw [Tree.allResolved_singleton] at ih ⊢
    exact ⟨List.cons_ne_nil _ _, ih.2⟩
  | group opens inner closes ih => exact ih
  | primary inner ih => exact ih
  | factor inner ih => exact ih
  | plus kind inner ih => exact ih
  | operand inner ih => exact ih
  | lower inner ih => exact ih
  | argument inner ih => exact ih

namespace Tree

/-! ## Running -/

variable (source : String)

/-- A call finds its arguments on top of the stack, the last one first. -/
@[simp] theorem executeCall_reverse [Numerics] {f : Function} {span : Span} {n : Nat} {xs : List Binary64}
    (hlen : xs.length = n) (arity : ∀ m, f.arity? = some m → n = m) (stack : Stack) :
    Instruction.executeCall source f n span (xs.reverse ++ stack) =
      (applyAt source f span xs).map fun x => x :: stack := by
  have harity : f.arity?.any (fun m => m ≠ n) = false := by
    cases h : f.arity? with
    | none => rfl
    | some m => simp [arity m h]
  have hrev : xs.reverse.length = n := by rw [List.length_reverse, hlen]
  have henough : ¬ (xs.reverse ++ stack).length < n := by
    rw [List.length_append, hrev]
    omega
  rw [Instruction.executeCall, harity, if_neg Bool.false_ne_true, if_neg henough,
    List.take_left' hrev, List.drop_left' hrev, List.reverse_reverse, applyAt]
  -- both sides word a refusal alike
  cases f.apply xs with
  | ok x => rfl
  | error reason => cases reason <;> rfl

mutual

/-- **The postorder of a tree computes its value**, or fails as the tree does. -/
@[simp] theorem execute_postorder [Numerics] (t : Tree) (h : t.Resolved) (stack : Stack) :
    execute source t.postorder stack = (t.evaluate source).map fun x => x :: stack := by
  match t with
  | .number value span =>
    rw [postorder, evaluate]
    rfl
  | .negate offset t =>
    rw [postorder, evaluate, execute_append, execute_postorder t h stack]
    cases t.evaluate source <;> rfl
  | .factorial offset t =>
    rw [postorder, evaluate, execute_append, execute_postorder t h stack]
    cases t.evaluate source <;> rfl
  | .operation op offset l r =>
    rw [postorder, evaluate, execute_append, execute_postorder l h.1 stack]
    cases l.evaluate source with
    | error e => rfl
    | ok x =>
      -- the right operand runs above the left one
      show execute source (r.postorder ++ _) (x :: stack) = _
      rw [execute_append, execute_postorder r h.2 (x :: stack)]
      show _ = ((r.evaluate source).map _).map _
      cases r.evaluate source <;> rfl
  | .call f span ts =>
    obtain ⟨-, arity, hts⟩ := h
    rw [postorder, evaluate, execute_append, execute_postorders ts hts stack]
    cases hvalues : evaluateAll source ts with
    | error e => rfl
    | ok xs =>
      -- the call finds the values of its arguments on top
      show execute source [.call f ts.length span] (xs.reverse ++ stack) =
        (applyAt source f span xs).map _
      rw [← executeCall_reverse source (length_of_evaluateAll hvalues) arity stack, execute]
      show (match Instruction.executeCall source f ts.length span (xs.reverse ++ stack) with
        | .ok stack' => execute source [] stack'
        | .error e => .error e) = _
      cases Instruction.executeCall source f ts.length span (xs.reverse ++ stack) <;> rfl

/-- And the programs of several trees, one after the other, push their values. -/
@[simp] theorem execute_postorders [Numerics] (ts : List Tree) (h : AllResolved ts) (stack : Stack) :
    execute source (postorders ts) stack =
      (evaluateAll source ts).map fun xs => xs.reverse ++ stack := by
  match ts with
  | [] => rfl
  | t :: ts =>
    rw [postorders, evaluateAll, execute_append, execute_postorder t h.1 stack]
    cases t.evaluate source with
    | error e => rfl
    | ok x =>
      show execute source (postorders ts) (x :: stack) =
        ((evaluateAll source ts).map _).map _
      rw [execute_postorders ts h.2 (x :: stack)]
      cases evaluateAll source ts with
      | error e => rfl
      | ok xs =>
        show Except.ok (xs.reverse ++ x :: stack) = Except.ok ((x :: xs).reverse ++ stack)
        rw [List.reverse_cons, List.append_assoc, List.singleton_append]

end

/-- The program of a tree has the value of the tree. -/
@[simp] theorem run_postorder [Numerics] (t : Tree) (h : t.Resolved) :
    Program.run ⟨source, t.postorder⟩ = t.evaluate source := by
  rw [Program.run, execute_postorder source t h []]
  cases t.evaluate source <;> rfl

end Tree

/-- So does that of every tree that tokens mean. -/
theorem Reads.run_postorder [Numerics] {s : Stratum} {ts : List Token} {tree : Tree} (h : Reads s ts [tree])
    (source : String) : Program.run ⟨source, tree.postorder⟩ = tree.evaluate source :=
  Tree.run_postorder source tree (Tree.allResolved_singleton.mp h.resolved.2)

/-! ## Expressions and their trees -/

/-- **Assembling an expression writes its tree in postorder.** When an expression has a program, its
tokens mean exactly one tree by the grammar with levels. The instructions are the postorder of that
tree, and running them gives its value or its first failure. -/
theorem assemble_postorder [Numerics] {source : Option String} {maxDepth : Int} {p : Program}
    (h : assemble source maxDepth = .ok p) :
    ∃ s ts last tree, source = some s ∧ tokenize source = .ok (ts ++ [last]) ∧
      last.kind = .finish ∧ Reads (.level 0) ts [tree] ∧
      (∀ tree', Reads (.level 0) ts [tree'] → tree' = tree) ∧
      p.source = s ∧ p.instructions = tree.postorder ∧ p.run = tree.evaluate s := by
  obtain ⟨s, ts, last, tree, rfl, htokens, hlast, hnests, htree, rfl⟩ := exists_tree_of_assemble h
  refine ⟨s, ts, last, tree, rfl, htokens, hlast, htree, ?_, rfl, rfl, ?_⟩
  · intro tree' htree'
    -- both trees complete the same program
    obtain ⟨a, hfeed, hprogram⟩ := htree.feed_complete hlast s hnests
    obtain ⟨a', hfeed', hprogram'⟩ := htree'.feed_complete hlast s hnests
    rw [hfeed] at hfeed'
    cases hfeed'
    rw [hprogram] at hprogram'
    exact Tree.postorder_injective (congrArg Program.instructions hprogram').symm
  · exact htree.run_postorder s

/-- The sign of `-2^2!` belongs to the first number and the mark of the factorial to the second. -/
theorem assemble_postorder_signed_power :
    ∃ p, assemble (some "-2^2!") 0 = .ok p ∧ p.text = "2.0 neg 2.0 ! ^" ∧
      ∃ tree : Tree, p.instructions = tree.postorder ∧ p.run = tree.evaluate "-2^2!" := by
  have htext : ((assemble (some "-2^2!") 0).map Program.text).toOption = some "2.0 neg 2.0 ! ^" := by
    decide +kernel
  cases h : assemble (some "-2^2!") 0 with
  | error f =>
    rw [h] at htext
    cases htext
  | ok p =>
    rw [h] at htext
    obtain ⟨s, ts, last, tree, hs, -, -, -, -, -, hpostorder, hrun⟩ := assemble_postorder h
    cases hs
    exact ⟨p, rfl, Option.some.inj htext, tree, hpostorder, hrun⟩

end Reckoner
