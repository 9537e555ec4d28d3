import Reckoner.Proofs.Evaluate.Containment
import Reckoner.Proofs.Postfix.Spans

/-! # Where the faults of an evaluation point

Every fault of an evaluation points at the place of its cause: those of an assembly do, the surplus of an
expression that is too long is what exceeds the limit, and a reducer that refuses its arguments points at
its call. A limit that cannot be written keeps the fault of a bracket from being reported at all.

* **`spansCall_of_assemble`** — the span of a call in a program is that of the call in the text.
* **`exists_call_of_execute`** — a refusal comes from a call, and points where the call does.
* **`evaluate_points_at`** — the faults of an evaluation. -/

namespace Reckoner

/-! ## Calls -/

/-- **The calls of a program** have the spans of the calls in its expression. -/
theorem spansCall_of_assemble {source : Option String} {maxDepth : Int} {p : Program}
    (h : assemble source maxDepth = .ok p) {f : Function} {count : Nat} {span : Span}
    (hmem : .call f count span ∈ p.instructions) :
    ∃ offset length : Nat, span = ⟨offset, length⟩ ∧ SpansCall p.source f count offset length := by
  obtain ⟨s, ts, last, tree, rfl, htokens, hlast, -, htree, rfl⟩ := exists_tree_of_assemble h
  obtain ⟨_, c', hs, -, hyields⟩ := tokenize_eq_ok_iff.mp htokens
  cases hs
  -- the call is written at its name
  obtain ⟨js, hwrites, hperm, -⟩ := htree.writes hlast
  rw [← operandDue_nil] at hwrites
  obtain ⟨mid, name, after, hts, hstands⟩ := hwrites.exists_of_mem (hperm.mem_iff.mpr hmem)
  obtain ⟨kind, hcall⟩ := Token.of_instruction?_eq_call hstands
  obtain ⟨opening, inside, g, closing, count', rfl, known, hcloses, hsame⟩ :=
    Token.exists_of_call?_eq_some hcall
  cases hsame
  -- the bracket that closes it is one of the tokens after the name
  obtain ⟨inside, rest, rfl, closes, hclosing⟩ := exists_of_closing? hcloses
  have opens := hyields.callsOpen mid name opening _ hts kind
  have hmeets : Cursor.Meets s (mid ++ name :: opening :: inside) closing := by
    have hsplit : mid ++ name :: opening :: (inside ++ closing :: rest) =
        mid ++ name :: opening :: inside ++ closing :: rest := by
      simp only [List.append_assoc, List.cons_append]
    rw [hts, hsplit] at hyields
    exact hyields.exists_next_of_append
  exact ⟨_, _, rfl, hmeets.spansCall kind known opens closes (hclosing [])⟩

/-! ## Refusals -/

/-- Only a call refuses, and it points at its own place. -/
theorem Instruction.exists_call_of_execute [Numerics] {source : String} {i : Instruction} {stack : Stack}
    {f : Fault} (h : i.execute source stack = .error (.fault f)) (kind : f.kind = .domainError) :
    ∃ g count span, ∃ reason : Rejection, i = .call g count span ∧
      f = ⟨.domain g.name reason.message, source, span.offset, span.length⟩ := by
  rw [Instruction.execute.eq_def] at h
  split at h
  · cases h
  · cases h
  · cases h
    cases kind
  · cases h
  · cases h
    cases kind
  · cases h
  · cases h
    cases kind
  · next g count span =>
    rw [executeCall] at h
    split at h
    · obtain ⟨-, rfl⟩ := Failure.ofFault_eq_fault_iff.mp (Except.error.inj h)
      cases kind
    · split at h
      · obtain ⟨-, rfl⟩ := Failure.ofFault_eq_fault_iff.mp (Except.error.inj h)
        cases kind
      · split at h
        · cases h
        · cases h
        · next reason hreason =>
          cases h
          exact ⟨g, count, span, _, rfl, rfl⟩
  · cases h
    cases kind

/-- **A refusal comes from one of the calls.** -/
theorem exists_call_of_execute [Numerics] {source : String} {is : List Instruction} {stack : Stack}
    {f : Fault} (h : execute source is stack = .error (.fault f)) (kind : f.kind = .domainError) :
    ∃ g count span, ∃ reason : Rejection, .call g count span ∈ is ∧
      f = ⟨.domain g.name reason.message, source, span.offset, span.length⟩ := by
  induction is generalizing stack with
  | nil => cases h
  | cons i is ih =>
    rw [execute] at h
    cases hi : i.execute source stack with
    | ok stack' =>
      rw [hi] at h
      obtain ⟨g, count, span, reason, hmem, hf⟩ := ih h
      exact ⟨g, count, span, reason, List.mem_cons_of_mem i hmem, hf⟩
    | error e =>
      rw [hi] at h
      cases h
      obtain ⟨g, count, span, reason, rfl, hf⟩ := Instruction.exists_call_of_execute hi kind
      exact ⟨g, count, span, reason, List.mem_cons_self .., hf⟩

/-- **A program that is refused its arguments** points at one of its calls. -/
theorem exact_of_run_error [Numerics] {source : Option String} {maxDepth : Int} {p : Program} {e : Failure}
    (h : assemble source maxDepth = .ok p) (hrun : p.run = .error e) :
    ∃ f, e = .fault f ∧ f.source = p.source ∧ f.Exact := by
  obtain ⟨f, -, -, -, rfl, -, kind, -, -, -, hsource, -⟩ :=
    (settles_of_assemble h).error_iff.2 e hrun
  rw [Program.run] at hrun
  split at hrun
  · next e hexecute =>
    cases hrun
    obtain ⟨g, count, span, reason, hmem, rfl⟩ := exists_call_of_execute hexecute kind
    obtain ⟨offset, length, rfl, hspans⟩ := spansCall_of_assemble h hmem
    exact ⟨_, rfl, rfl, offset, length, rfl, rfl, g, count, rfl, hspans⟩
  · cases hrun
  · -- one value too many or too few is no refusal
    cases hrun
    cases kind

/-! ## Evaluations -/

/-- The surplus of an expression that is too long is what exceeds the limit. -/
theorem exact_of_limitLength_error {source : Option String} {maxLength : Int} {f : Fault}
    (bound : 0 ≤ maxLength) (h : limitLength source maxLength = .error f) :
    f.source = source.getD "" ∧ f.Exact := by
  obtain ⟨limit, rfl⟩ := Int.eq_ofNat_of_zero_le bound
  cases source with
  | none => cases h
  | some s =>
    rw [limitLength] at h
    split at h
    · next hlong =>
      cases h
      have hle : limit ≤ s.length := by omega
      have hdrop : (s.toList.drop limit).length = s.length - limit := by
        rw [List.length_drop, String.length_toList]
      refine ⟨rfl, limit, s.length - limit, rfl, (Int.ofNat_sub hle).symm, rfl, rfl, hdrop.symm, ?_⟩
      exact List.take_of_length_le (Nat.le_of_eq hdrop)
    · cases h

/-- The fault of an expression that is not assembled points at what is wrong, and so does the surplus of
one that is too long. -/
theorem exact_of_compile_error {limits : Limits} {source : Option String} {f : Fault}
    (bound : 0 ≤ limits.maxLength) (h : compile limits source = .error (.fault f)) :
    f.source = source.getD "" ∧ f.Exact := by
  rcases cases_of_compile_fault h with hlimit | hassemble
  · exact exact_of_limitLength_error bound hlimit
  · exact ⟨source_of_assemble_error hassemble, exact_of_assemble_error hassemble⟩

/-- **The faults of an evaluation point at what is wrong**, if the limit of the length is not negative. A
fault is one in the expression that was given, and its span is the place of its cause. Only where the
limit on brackets cannot be written is there no fault that could point anywhere. -/
theorem evaluate_points_at [Numerics] {limits : Limits} {source : Option String} {e : Failure}
    (bound : 0 ≤ limits.maxLength) (h : evaluate limits source = .error e) :
    (∃ f, e = .fault f ∧ f.source = source.getD "" ∧ f.Exact) ∧ ¬ limits.Unwritable source ∨
      e = .excess .digitsWritten ∧ limits.Unwritable source := by
  rcases refusesEvaluation_of_evaluate_error h with ⟨⟨f, rfl, -⟩, hlimits⟩ | hexcess
  · refine .inl ⟨⟨f, rfl, ?_⟩, hlimits⟩
    rw [evaluate] at h
    cases hcompile : compile limits source with
    | error e =>
      rw [hcompile] at h
      cases h
      exact exact_of_compile_error bound hcompile
    | ok p =>
      rw [hcompile] at h
      have hassemble := assemble_of_compile hcompile
      obtain ⟨g, hg, hsource, hexact⟩ := exact_of_run_error hassemble h
      cases hg
      obtain ⟨s, ts, last, tree, rfl, -, -, -, -, rfl⟩ := exists_tree_of_assemble hassemble
      exact ⟨hsource, hexact⟩
  · exact .inr hexcess

/-- The call of `pow` has three arguments, one of them in brackets, and takes two. The fault spans the
name, its brackets and what is between them; what follows is never looked at. -/
theorem evaluate_points_at_call :
    evaluate {} (some "-max(1, pow( 3 ,4, (5) ))+") = .error (.fault
        ⟨.arityMismatch "pow" 2 3, "-max(1, pow( 3 ,4, (5) ))+", 8, 16⟩) ∧
      Fault.Exact ⟨.arityMismatch "pow" 2 3, "-max(1, pow( 3 ,4, (5) ))+", 8, 16⟩ := by
  have hevaluate : evaluate {} (some "-max(1, pow( 3 ,4, (5) ))+") = .error (.fault
      ⟨.arityMismatch "pow" 2 3, "-max(1, pow( 3 ,4, (5) ))+", 8, 16⟩) := by
    decide +kernel
  rcases evaluate_points_at (by decide) hevaluate with ⟨⟨f, hf, -, hexact⟩, -⟩ | ⟨hexcess, -⟩
  · cases hf
    exact ⟨hevaluate, hexact⟩
  · cases hexcess

/-- Under a limit far below zero, the bracket of `(1)` is refused without a fault that points at it. -/
theorem evaluate_points_nowhere :
    evaluate { maxDepth := farBelowZero } (some "(1)") = .error (.excess .digitsWritten) ∧
      ∀ f, evaluate { maxDepth := farBelowZero } (some "(1)") ≠ .error (.fault f) := by
  have hevaluate : evaluate { maxDepth := farBelowZero } (some "(1)") =
      .error (.excess .digitsWritten) := by decide +kernel
  refine ⟨hevaluate, fun f => ?_⟩
  rw [hevaluate]
  exact nofun

end Reckoner
