import Reckoner.Proofs.Evaluate.Containment
import Reckoner.Proofs.Postfix.Layout
import Reckoner.Proofs.Token.LetterCase

/-! # The case of letters does not matter

From its tokens to its value, an expression means the same in any case. Switching the case of some of its
letters changes neither its program nor its value, and a fault is found at the same place.

* **`Fault.Agrees`** — faults of the same kind at the same place.
* **`assemble_smallForm`** — the program of the small form of an expression.
* **`assemble_switchCase`** — expressions that differ in the case of letters only. -/

namespace Reckoner

/-- Two faults **agree** when they are of the same kind and at the same place. -/
structure Fault.Agrees (f g : Fault) : Prop where
  category : g.category = f.category
  kind : g.kind = f.kind
  offset : g.offset = f.offset
  length : g.length = f.length

/-- The small form of a text moves no place in it. -/
theorem Likeness.still_smallForm : Likeness.smallForm.Still := fun _ _ h => h

/-- Faults that are alike agree where no place is moved. -/
theorem Likeness.Faults.agrees {l : Likeness} (still : l.Still) {f g : Fault} (h : l.Faults f g) :
    f.Agrees g := by
  obtain ⟨hoffset, hlength⟩ := Span.mk.inj (h.span.eq still)
  refine ⟨?_, ?_, hoffset, hlength⟩
  · rw [Fault.category, h.cause, Cause.category_respell]
    rfl
  · rw [Fault.kind, h.cause, Cause.kind_respell]
    rfl

/-- **The program of the small form** of an expression is the same, or there are faults that agree. -/
theorem assemble_smallForm (source : Option String) (maxDepth : Int) :
    Likeness.smallForm.Results (assemble source maxDepth)
      (assemble (source.map smallForm) maxDepth) := by
  cases source with
  | none => exact .fault ⟨rfl, .of_begins rfl 0⟩
  | some s =>
    by_cases hs : s = ""
    · subst hs
      exact .fault ⟨rfl, .of_begins rfl 0⟩
    · have hsmall : smallForm s ≠ "" := by
        intro hempty
        have hlength := length_smallForm s
        rw [hempty] at hlength
        exact hs (String.length_eq_zero_iff.mp hlength.symm)
      rw [Option.map_some, assemble_eq_resume hs, assemble_eq_resume hsmall]
      exact Likeness.resume Cursor.Beside.nexts (Likeness.assemblers_start s _ maxDepth) .operand
        (Cursor.beside_atStart s)

/-- Two expressions with the same small form have the same program, or faults that agree. -/
theorem assemble_of_smallForm_eq {source source' : Option String}
    (same : source'.map smallForm = source.map smallForm) (maxDepth : Int) :
    (∃ p q, assemble source maxDepth = .ok p ∧ assemble source' maxDepth = .ok q ∧
      q.instructions = p.instructions) ∨
    ∃ f g, assemble source maxDepth = .error f ∧ assemble source' maxDepth = .error g ∧
      f.Agrees g := by
  have h := assemble_smallForm source maxDepth
  have h' := assemble_smallForm source' maxDepth
  rw [same] at h'
  generalize assemble source maxDepth = result, assemble source' maxDepth = result',
    assemble (source.map smallForm) maxDepth = small at h h' ⊢
  cases h with
  | program instructions =>
    cases h' with
    | program instructions' =>
      have hleft := Likeness.instructions_eq Likeness.still_smallForm instructions
      have hright := Likeness.instructions_eq Likeness.still_smallForm instructions'
      exact .inl ⟨_, _, rfl, rfl, hright.symm.trans hleft⟩
  | fault alike =>
    cases h' with
    | fault alike' =>
      have hleft := alike.agrees Likeness.still_smallForm
      have hright := alike'.agrees Likeness.still_smallForm
      exact .inr ⟨_, _, rfl, rfl, hright.category.symm.trans hleft.category,
        hright.kind.symm.trans hleft.kind, hright.offset.symm.trans hleft.offset,
        hright.length.symm.trans hleft.length⟩

/-- Programs with the same instructions have the same value, or faults that agree: they stop at the
same call. -/
theorem Settles.agree {source source' : String} {is : List Instruction}
    {result result' : Except Failure Binary64} (h : Settles source is result)
    (h' : Settles source' is result')
    (same : result'.mapError Failure.unplaced = result.mapError Failure.unplaced) :
    (∃ value, result = .ok value ∧ result' = .ok value) ∨
      ∃ f g, result = .error (.fault f) ∧ result' = .error (.fault g) ∧ f.Agrees g := by
  rw [Settles] at h h'
  cases hfind : is.find? Instruction.refused with
  | none =>
    rw [hfind] at h h'
    obtain ⟨value, rfl⟩ := h
    obtain ⟨value', rfl⟩ := h'
    cases same
    exact .inl ⟨value, rfl, rfl⟩
  | some i =>
    rw [hfind] at h h'
    obtain ⟨name, reason, rfl⟩ := h
    obtain ⟨name', reason', rfl⟩ := h'
    exact .inr ⟨_, _, rfl, rfl, rfl, rfl, rfl, rfl⟩

/-- Two expressions with the same small form are equally long, so a limit refuses both or neither, for the
same cause. -/
theorem limitLength_of_smallForm_eq {source source' : Option String}
    (same : source'.map smallForm = source.map smallForm) (maxLength : Int) :
    limitLength source maxLength = .ok () ∧ limitLength source' maxLength = .ok () ∨
      ∃ f g, limitLength source maxLength = .error f ∧ limitLength source' maxLength = .error g ∧
        f.Agrees g ∧ g.cause = f.cause := by
  cases source with
  | none =>
    obtain rfl := Option.map_eq_none_iff.mp same
    exact .inl ⟨rfl, rfl⟩
  | some s =>
    obtain ⟨s', rfl, hs⟩ := Option.map_eq_some_iff.mp same
    have hlength : s'.length = s.length := by
      rw [← length_smallForm s, ← length_smallForm s', hs]
    rw [limitLength, limitLength, hlength]
    split
    · exact .inr ⟨_, _, rfl, rfl, ⟨rfl, rfl, rfl, rfl⟩, rfl⟩
    · exact .inl ⟨rfl, rfl⟩

/-- Faults that agree are both reported, or neither can be. -/
theorem Failure.ofFault_agree {f g : Fault} (agrees : f.Agrees g)
    (same : g.cause.isOverlong = true ↔ f.cause.isOverlong = true) :
    (∃ f' g', ofFault f = .fault f' ∧ ofFault g = .fault g' ∧ f'.Agrees g') ∨
      ofFault f = .excess .digitsWritten ∧ ofFault g = .excess .digitsWritten := by
  cases hf : f.cause.isOverlong with
  | false =>
    have hg : g.cause.isOverlong = false := by
      rw [← Bool.not_eq_true, same, hf]
      exact Bool.false_ne_true
    exact .inl ⟨f, g, ofFault_of_short hf, ofFault_of_short hg, agrees⟩
  | true => exact .inr ⟨ofFault_of_overlong hf, ofFault_of_overlong (same.mpr hf)⟩

/-- Two expressions with the same small form have the same program, or faults that agree, or run into a
limit that cannot be written. -/
theorem compile_of_smallForm_eq {source source' : Option String}
    (same : source'.map smallForm = source.map smallForm) (limits : Limits) :
    (∃ p q, compile limits source = .ok p ∧ compile limits source' = .ok q ∧
      q.instructions = p.instructions) ∨
    (∃ f g, compile limits source = .error (.fault f) ∧ compile limits source' = .error (.fault g) ∧
      f.Agrees g) ∨
    compile limits source = .error (.excess .digitsWritten) ∧
      compile limits source' = .error (.excess .digitsWritten) := by
  -- faults that agree are reported in the same way
  have hfaults : ∀ f g, compile limits source = .error (.ofFault f) →
      compile limits source' = .error (.ofFault g) → f.Agrees g →
      (g.cause.isOverlong = true ↔ f.cause.isOverlong = true) →
      (∃ f g, compile limits source = .error (.fault f) ∧ compile limits source' = .error (.fault g) ∧
        f.Agrees g) ∨
      compile limits source = .error (.excess .digitsWritten) ∧
        compile limits source' = .error (.excess .digitsWritten) := by
    intro f g hf hg agrees hoverlong
    rw [hf, hg]
    rcases Failure.ofFault_agree agrees hoverlong with ⟨f', g', hf', hg', agrees'⟩ | ⟨hf', hg'⟩
    · exact .inl ⟨f', g', by rw [hf'], by rw [hg'], agrees'⟩
    · exact .inr ⟨by rw [hf'], by rw [hg']⟩
  rcases limitLength_of_smallForm_eq same limits.maxLength with
    ⟨h, h'⟩ | ⟨f, g, h, h', agrees, hcause⟩
  · rw [compile_eq_parse h, compile_eq_parse h'] at hfaults ⊢
    rcases assemble_of_smallForm_eq same limits.maxDepth with
      ⟨p, q, hp, hq, hinstructions⟩ | ⟨f, g, hf, hg, agrees⟩
    · exact .inl ⟨p, q, parse_eq_ok_iff.mpr hp, parse_eq_ok_iff.mpr hq, hinstructions⟩
    · refine .inr (hfaults f g (parse_eq_error hf) (parse_eq_error hg) agrees ?_)
      rw [isOverlong_iff_of_assemble_error hf, isOverlong_iff_of_assemble_error hg, agrees.kind]
  · refine .inr (hfaults f g (by rw [compile, h]; rfl) (by rw [compile, h']; rfl) agrees ?_)
    rw [hcause]

/-- Two expressions with the same small form have the same value, or faults that agree, or run into a
limit that cannot be written. -/
theorem evaluate_of_smallForm_eq [Numerics] {source source' : Option String}
    (same : source'.map smallForm = source.map smallForm) (limits : Limits) :
    (∃ value, evaluate limits source = .ok value ∧ evaluate limits source' = .ok value) ∨
    (∃ f g, evaluate limits source = .error (.fault f) ∧ evaluate limits source' = .error (.fault g) ∧
      f.Agrees g) ∨
    limits.Unwritable source ∧ evaluate limits source = .error (.excess .digitsWritten) ∧
      evaluate limits source' = .error (.excess .digitsWritten) := by
  rcases compile_of_smallForm_eq same limits with
    ⟨p, q, hp, hq, hinstructions⟩ | ⟨f, g, hf, hg, agrees⟩ | ⟨hexcess, hexcess'⟩
  · have hsettles := settles_of_assemble (assemble_of_compile hq)
    rw [hinstructions] at hsettles
    rw [evaluate, evaluate, hp, hq]
    rcases (settles_of_assemble (assemble_of_compile hp)).agree hsettles
      (Program.run_of_unplaced (by rw [hinstructions])) with hvalue | hfaults
    · exact .inl hvalue
    · exact .inr (.inl hfaults)
  · rw [evaluate, evaluate, hf, hg]
    exact .inr (.inl ⟨f, g, rfl, rfl, agrees⟩)
  · rw [evaluate, evaluate, hexcess, hexcess']
    refine .inr (.inr ⟨?_, rfl, rfl⟩)
    rcases refusesExpression_of_compile_error hexcess with ⟨⟨f, hf, -⟩, -⟩ | ⟨-, hlimits⟩
    · cases hf
    · exact hlimits

/-- **The case of letters does not matter.** When the letters at any places of an expression change their
case, it has a program with the same instructions at the same places, or both expressions have faults of
the same kind at the same place; and both have the same value, or such faults. If a limit cannot be
written, the faults of both are not reported. -/
theorem assemble_switchCase [Numerics] (chosen : Nat → Bool) (source : Option String) :
    (∀ maxDepth,
      (∃ p q, assemble source maxDepth = .ok p ∧
        assemble (source.map (switchCase chosen)) maxDepth = .ok q ∧
        q.instructions = p.instructions) ∨
      ∃ f g, assemble source maxDepth = .error f ∧
        assemble (source.map (switchCase chosen)) maxDepth = .error g ∧ f.Agrees g) ∧
    ∀ limits,
      (∃ value, evaluate limits source = .ok value ∧
        evaluate limits (source.map (switchCase chosen)) = .ok value) ∨
      (∃ f g, evaluate limits source = .error (.fault f) ∧
        evaluate limits (source.map (switchCase chosen)) = .error (.fault g) ∧ f.Agrees g) ∨
      limits.Unwritable source ∧ evaluate limits source = .error (.excess .digitsWritten) ∧
        evaluate limits (source.map (switchCase chosen)) = .error (.excess .digitsWritten) := by
  have hsame : (source.map (switchCase chosen)).map smallForm = source.map smallForm := by
    rw [Option.map_map]
    exact congrArg (source.map ·) (funext (smallForm_switchCase chosen))
  exact ⟨assemble_of_smallForm_eq hsame, evaluate_of_smallForm_eq hsame⟩

end Reckoner
