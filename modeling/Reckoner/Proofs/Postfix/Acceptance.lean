import Reckoner.Proofs.Postfix.Recognition
import Reckoner.Proofs.Postfix.Translation

/-! # Which expressions have a program

An expression has a program exactly when its tokens are one by the grammar and their brackets nest
within the limit; the program is the postorder of its tree. Every other expression has a fault of one
of three kinds.

* **`exists_tree_of_assemble`** — a program is the postorder of a tree of the tokens.
* **`assemble_of_reads`** — the tokens of a tree have its postorder as their program.
* **`exists_program_of_derives`** — every expression within the limit has a program.
* **`category_of_assemble_error`** — the faults of an assembly.
* **`assemble_accepts_iff`** — which expressions have a program, and what becomes of the others. -/

namespace Reckoner

/-! ## From programs to trees and back -/

/-- **A program is the postorder of a tree** of the tokens, whose brackets nest within the limit. -/
theorem exists_tree_of_assemble {source : Option String} {maxDepth : Int} {p : Program}
    (h : assemble source maxDepth = .ok p) :
    ∃ s ts last tree, source = some s ∧ tokenize source = .ok (ts ++ [last]) ∧
      last.kind = .finish ∧ NestsWithin maxDepth ts ∧ Reads (.level 0) ts [tree] ∧
      p = ⟨s, tree.postorder⟩ := by
  obtain ⟨s, us, c', a', rfl, hne, hyield, hfeed, rfl⟩ := assemble_eq_ok_iff.mp h
  obtain ⟨ts, last, rfl, hlast, hinner⟩ := hyield.split_finish
  -- what has been recognized has a tree, and the tree emits its postorder
  obtain ⟨hderives, hnests⟩ := Assembler.derives_of_feed_complete hyield.callsOpen hinner hfeed
  obtain ⟨tree, htree⟩ := hderives.hasTree
  obtain ⟨a, hcomplete, hprogram⟩ := htree.feed_complete hlast _ hnests
  -- the same tokens lead to the same assembler
  rw [hfeed] at hcomplete
  cases hcomplete
  exact ⟨s, ts, last, tree, rfl, tokenize_eq_ok_iff.mpr ⟨s, c', rfl, hne, hyield⟩, hlast, hnests,
    htree, hprogram⟩

/-- **Every reading within the limit** gives the postorder of its tree. -/
theorem assemble_of_reads {s : String} {maxDepth : Int} {ts : List Token} {last : Token}
    {tree : Tree} (htokens : tokenize (some s) = .ok (ts ++ [last])) (hlast : last.kind = .finish)
    (htree : Reads (.level 0) ts [tree]) (hnests : NestsWithin maxDepth ts) :
    assemble (some s) maxDepth = .ok ⟨s, tree.postorder⟩ := by
  obtain ⟨_, c', hs, hne, hyield⟩ := tokenize_eq_ok_iff.mp htokens
  cases hs
  obtain ⟨a, hcomplete, hprogram⟩ := htree.feed_complete hlast s hnests
  exact assemble_eq_ok_iff.mpr ⟨s, _, c', a, rfl, hne, hyield, hcomplete, hprogram.symm⟩

/-- **Every expression within the limit has a program.** -/
theorem exists_program_of_derives {source : Option String} {maxDepth : Int} {ts : List Token}
    {last : Token} (htokens : tokenize source = .ok (ts ++ [last])) (hlast : last.kind = .finish)
    (hderives : Derives .expression ts) (hnests : NestsWithin maxDepth ts) :
    ∃ p, assemble source maxDepth = .ok p := by
  obtain ⟨s, -, rfl, -, -⟩ := tokenize_eq_ok_iff.mp htokens
  obtain ⟨tree, htree⟩ := hderives.hasTree
  exact ⟨_, assemble_of_reads htokens hlast htree hnests⟩

/-! ## The faults of an assembly -/

/-- The categories of the faults that keep an expression from having a program. -/
def FaultCategory.RefusesExpression (category : FaultCategory) : Prop :=
  category = .lexical ∨ category = .syntactic ∨ category = .arity

/-- The faults of a token are lexical when it is no token at all, of the arity of a call when that is
wrong, and syntactic otherwise. -/
theorem Assembler.Step.category_of_fault {a a' : Assembler} {t : Token} {e : Expectation}
    {f : Fault} (step : Step a t e (.fault f) a') : f.category.RefusesExpression := by
  generalize hp : Progress.fault f = progress at step
  cases step with
  | illegal => cases hp; exact .inl rfl
  | arityMismatch => cases hp; exact .inr (.inr rfl)
  | unknownVariable => cases hp; exact .inr (.inl rfl)
  | unknownFunction => cases hp; exact .inr (.inl rfl)
  | tooDeep => cases hp; exact .inr (.inl rfl)
  | endsBeforeOperand => cases hp; exact .inr (.inl rfl)
  | notAnOperand => cases hp; exact .inr (.inl rfl)
  | emptyParens => cases hp; exact .inr (.inl rfl)
  | misplacedComma => cases hp; exact .inr (.inl rfl)
  | unmatchedClose => cases hp; exact .inr (.inl rfl)
  | unclosed => cases hp; exact .inr (.inl rfl)
  | missingOperator => cases hp; exact .inr (.inl rfl)
  | _ => cases hp

/-- An assembly that ends with a fault refuses the expression. -/
theorem Assembler.Ends.category_of_error {a a' : Assembler} {e : Expectation} {c c' : Cursor}
    {f : Fault} (h : Ends a e c (.error f) a' c') : f.category.RefusesExpression := by
  cases h with
  | unreadable read => exact .inl (Cursor.category_of_next_error read)
  | fault read accepted => exact (step_of_accept accepted).category_of_fault

/-- **The faults of an assembly** are lexical, syntactic or those of an arity. -/
theorem category_of_assemble_error {source : Option String} {maxDepth : Int} {f : Fault}
    (h : assemble source maxDepth = .error f) : f.category.RefusesExpression := by
  rw [assemble] at h
  cases hopen : Cursor.open? source with
  | error g =>
    rw [hopen] at h
    cases h
    exact .inl (Cursor.category_of_open?_error hopen)
  | ok c =>
    rw [hopen] at h
    obtain ⟨a, e, c', -, hends⟩ := Assembler.exists_ends (.start c.source maxDepth) .operand c
    have hfault : ((Assembler.start c.source maxDepth).resume .operand c).1 = .error f := h
    rw [hfault] at hends
    exact hends.category_of_error

/-! ## Exact acceptance -/

/-- **An expression has a program exactly when** it can be split into tokens, none of them illegal,
the tokens before the end token are an expression by the grammar, and no more brackets are open at
any place than the limit allows. Every other expression has a fault that is lexical, syntactic or of
an arity. -/
theorem assemble_accepts_iff (source : Option String) (maxDepth : Nat) :
    ((∃ p, assemble source maxDepth = .ok p) ↔
      ∃ ts last, tokenize source = .ok (ts ++ [last]) ∧ last.kind = .finish ∧
        (∀ t ∈ ts, t.kind ≠ .illegal) ∧ Derives .expression ts ∧
        ∀ before, before <+: ts → openBrackets before ≤ maxDepth) ∧
    ∀ f, assemble source maxDepth = .error f →
      f.category = .lexical ∨ f.category = .syntactic ∨ f.category = .arity := by
  refine ⟨⟨?_, ?_⟩, fun f h => category_of_assemble_error h⟩
  · rintro ⟨p, h⟩
    obtain ⟨s, ts, last, tree, -, htokens, hlast, hnests, htree, -⟩ := exists_tree_of_assemble h
    exact ⟨ts, last, htokens, hlast, htree.derives.legal, htree.derives,
      (nestsWithin_iff (Int.natCast_nonneg maxDepth)).mp hnests⟩
  · rintro ⟨ts, last, htokens, hlast, -, hderives, hopen⟩
    exact exists_program_of_derives htokens hlast hderives
      ((nestsWithin_iff (Int.natCast_nonneg maxDepth)).mpr hopen)

end Reckoner
