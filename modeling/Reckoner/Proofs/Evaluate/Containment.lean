import Reckoner.Elementary.Library
import Reckoner.Proofs.Postfix.Execution
import Reckoner.Proofs.Postfix.Reporting
import Reckoner.Proofs.Symbol.Checked
import Reckoner.Proofs.Token.Numeral

/-! # How an evaluation can fail

An expression without a program has a fault that says so. A program that was assembled can only fail
where a reducer that wants one argument is called with several, and it fails at the first such call.

* **`Instruction.refused`** — the calls of `single` and `singleordefault` with two or more arguments.
* **`Settles`** — a computation has a value unless one of its instructions is refused, and then it
  stops at the first of these.
* **`Tree.settles_postorder`** — every tree with resolved calls settles.
* **`Limits.Unwritable`** — an evaluation runs into a limit that cannot be written.
* **`evaluate_contained`** — how an evaluation can fail, and that no step of it can fail otherwise. -/

namespace Reckoner

/-! ## Refused calls -/

/-- Whether an instruction calls a reducer that wants at most one argument with **several
arguments**. -/
def Instruction.refused : Instruction → Bool
  | .call (.reducer .single) arity _ => 2 ≤ arity
  | .call (.reducer .singleOrDefault) arity _ => 2 ≤ arity
  | _ => false

/-- Only reducers refuse arguments. -/
theorem Instruction.exists_reducer_of_refused {i : Instruction} (h : i.refused = true) :
    ∃ reducer count span, i = .call (.reducer reducer) count span := by
  unfold Instruction.refused at h
  split at h
  · exact ⟨_, _, _, rfl⟩
  · exact ⟨_, _, _, rfl⟩
  · cases h

/-- A computation **settles** with its instructions: it has a value, or it stops at the first refused
instruction. -/
def Settles {α : Type} (source : String) (is : List Instruction) (result : Except Failure α) : Prop :=
  match is.find? Instruction.refused with
  | none => ∃ value, result = .ok value
  | some i => ∃ name reason,
    result = .error (.fault ⟨.domain name reason, source, i.span.offset, i.span.length⟩)

namespace Settles

variable {α β : Type} {source : String} {is js : List Instruction} {result : Except Failure α}

/-- Nothing to run settles on a value. -/
theorem ok (value : α) : Settles source [] (.ok value) := ⟨value, rfl⟩

/-- What is made of a value does not matter. -/
theorem map (h : Settles source is result) (g : α → β) : Settles source is (result.map g) := by
  rw [Settles] at h ⊢
  cases hfind : is.find? Instruction.refused with
  | none =>
    rw [hfind] at h
    obtain ⟨value, rfl⟩ := h
    exact ⟨g value, rfl⟩
  | some i =>
    rw [hfind] at h
    obtain ⟨name, reason, rfl⟩ := h
    exact ⟨name, reason, rfl⟩

/-- One computation after the other settles with the instructions of both. -/
theorem bind (h : Settles source is result) {g : α → Except Failure β}
    (hg : ∀ value, result = .ok value → Settles source js (g value)) :
    Settles source (is ++ js) (result.bind g) := by
  rw [Settles] at h
  rw [Settles, List.find?_append]
  cases hfind : is.find? Instruction.refused with
  | none =>
    rw [hfind] at h
    obtain ⟨value, rfl⟩ := h
    exact hg value rfl
  | some i =>
    rw [hfind] at h
    obtain ⟨name, reason, rfl⟩ := h
    exact ⟨name, reason, rfl⟩

/-- An instruction that is not refused changes nothing. -/
theorem append_of_not_refused (h : Settles source is result) {i : Instruction}
    (hi : i.refused = false) : Settles source (is ++ [i]) result := by
  rw [Settles, List.find?_append, List.find?_cons_of_neg (by rw [hi]; exact Bool.false_ne_true),
    List.find?_nil, Option.or_none]
  exact h

end Settles

/-- A function of fixed arity refuses nothing. -/
theorem Function.exists_apply [Numerics] (f : Function) (xs : List Binary64) (fixed : f.arity? ≠ none) :
    ∃ value, f.apply xs = .ok value := by
  unfold Function.apply
  split
  · exact absurd rfl fixed
  all_goals exact ⟨_, rfl⟩

/-- A call settles: a reducer has a value for one argument at least, and for exactly one if it wants
no more. -/
theorem Tree.settles_applyAt [Numerics] (source : String) (f : Function) (span : Span) {xs : List Binary64}
    (hxs : xs ≠ []) :
    Settles source [.call f xs.length span] (Tree.applyAt source f span xs) := by
  obtain ⟨x, xs, rfl⟩ := List.exists_cons_of_ne_nil hxs
  -- a call with a value is not refused, and the other way round
  have hvalue : ∀ value, f.apply (x :: xs) = .ok value →
      Instruction.refused (.call f (x :: xs).length span) = false →
      Settles source [.call f (x :: xs).length span] (Tree.applyAt source f span (x :: xs)) := by
    intro value happly hrefused
    rw [Tree.applyAt, happly]
    exact (Settles.ok value).append_of_not_refused hrefused
  have hrefusal : ∀ reason, reason ≠ .noElement → f.apply (x :: xs) = .error reason →
      Instruction.refused (.call f (x :: xs).length span) = true →
      Settles source [.call f (x :: xs).length span] (Tree.applyAt source f span (x :: xs)) := by
    intro reason hreason happly hrefused
    rw [Settles, List.find?_cons_of_pos hrefused, Tree.applyAt, happly]
    refine ⟨f.name, reason.message, ?_⟩
    cases reason with
    | noElement => exact absurd rfl hreason
    | _ => rfl
  cases f with
  | reducer f =>
    cases f with
    | single =>
      cases xs with
      | nil => exact hvalue x rfl rfl
      | cons y ys => exact hrefusal (.notExactlyOne _) (by simp) rfl (by simp [Instruction.refused])
    | singleOrDefault =>
      cases xs with
      | nil => exact hvalue x rfl rfl
      | cons y ys => exact hrefusal (.moreThanOne _) (by simp) rfl (by simp [Instruction.refused])
    | _ => exact hvalue _ rfl rfl
  | unary f =>
    obtain ⟨value, happly⟩ := Function.exists_apply (.unary f) (x :: xs) (Option.some_ne_none 1)
    exact hvalue value happly rfl
  | binary f =>
    obtain ⟨value, happly⟩ := Function.exists_apply (.binary f) (x :: xs) (Option.some_ne_none 2)
    exact hvalue value happly rfl
  | ternary f =>
    obtain ⟨value, happly⟩ := Function.exists_apply (.ternary f) (x :: xs) (Option.some_ne_none 3)
    exact hvalue value happly rfl

namespace Tree

variable (source : String)

mutual

/-- **Every tree with resolved calls settles** with its postorder. -/
theorem settles_postorder [Numerics] (t : Tree) (h : t.Resolved) :
    Settles source t.postorder (t.evaluate source) := by
  match t with
  | .number value span =>
    rw [postorder, evaluate]
    exact (Settles.ok value).append_of_not_refused rfl
  | .negate offset t =>
    rw [postorder, evaluate]
    exact ((settles_postorder t h).map _).append_of_not_refused rfl
  | .factorial offset t =>
    rw [postorder, evaluate]
    exact ((settles_postorder t h).map _).append_of_not_refused rfl
  | .operation op offset l r =>
    rw [postorder, evaluate]
    refine (settles_postorder l h.1).bind ?_
    intro x _
    exact ((settles_postorder r h.2).map _).append_of_not_refused rfl
  | .call f span ts =>
    obtain ⟨hne, -, hts⟩ := h
    rw [postorder, evaluate]
    refine (settles_postorders ts hts).bind ?_
    intro xs hxs
    have hlength := length_of_evaluateAll hxs
    -- there are as many values as arguments, so there is one
    have hsome : xs ≠ [] := by
      rintro rfl
      exact hne (List.length_eq_zero_iff.mp hlength.symm)
    rw [← hlength]
    exact settles_applyAt source f span hsome

/-- So do the programs of several trees, one after the other. -/
theorem settles_postorders [Numerics] (ts : List Tree) (h : AllResolved ts) :
    Settles source (postorders ts) (evaluateAll source ts) := by
  match ts with
  | [] => exact Settles.ok []
  | t :: ts =>
    rw [postorders, evaluateAll]
    refine (settles_postorder t h.1).bind ?_
    intro x _
    exact (settles_postorders ts h.2).map _

end

end Tree

/-- **An assembled program settles** with its instructions. -/
theorem settles_of_assemble [Numerics] {source : Option String} {maxDepth : Int} {p : Program}
    (h : assemble source maxDepth = .ok p) : Settles p.source p.instructions p.run := by
  obtain ⟨s, ts, last, tree, -, -, -, -, htree, rfl⟩ := exists_tree_of_assemble h
  have hresolved := Tree.allResolved_singleton.mp htree.resolved.2
  rw [Tree.run_postorder s tree hresolved]
  exact Tree.settles_postorder s tree hresolved

/-- What settles fails only at its first refused instruction, and it fails if there is one. -/
theorem Settles.error_iff {α : Type} {source : String} {is : List Instruction}
    {result : Except Failure α} (h : Settles source is result) :
    ((∃ f, result = .error (.fault f) ∧ f.kind = .domainError) ↔ ∃ i ∈ is, i.refused = true) ∧
      ∀ e, result = .error e → ∃ f before i after, e = .fault f ∧ f.category = .evaluation ∧
        f.kind = .domainError ∧ is = before ++ i :: after ∧ i.refused = true ∧
        (∀ j ∈ before, j.refused = false) ∧ f.source = source ∧ f.offset = i.span.offset ∧
        f.length = i.span.length := by
  rw [Settles] at h
  cases hfind : is.find? Instruction.refused with
  | none =>
    rw [hfind] at h
    obtain ⟨value, rfl⟩ := h
    refine ⟨⟨?_, ?_⟩, ?_⟩
    · rintro ⟨f, hf, -⟩
      cases hf
    · rintro ⟨i, hi, hrefused⟩
      exact absurd hrefused (List.find?_eq_none.mp hfind i hi)
    · intro e he
      cases he
  | some i =>
    rw [hfind] at h
    obtain ⟨name, reason, rfl⟩ := h
    obtain ⟨hrefused, before, after, rfl, hbefore⟩ := List.find?_eq_some_iff_append.mp hfind
    refine ⟨⟨?_, ?_⟩, ?_⟩
    · intro _
      exact ⟨i, by simp, hrefused⟩
    · intro _
      exact ⟨_, rfl, rfl⟩
    · intro e he
      cases he
      refine ⟨_, before, i, after, rfl, rfl, rfl, rfl, hrefused, ?_, rfl, rfl, rfl⟩
      intro j hj
      simpa using hbefore j hj

/-! ## Evaluations -/

/-- The faults of an evaluation: those that keep an expression from having a program, and a reducer's
refusal of its arguments. -/
def Fault.RefusesEvaluation (f : Fault) : Prop :=
  f.category.RefusesExpression ∨ f.category = .evaluation ∧ f.kind = .domainError

/-- **No conversion between text, integers and numbers fails**, whatever the numbers are. -/
structure ConversionsSucceed [Numerics] : Prop where
  /-- The text of every number token can be read. -/
  literals : ∀ (c c' : Cursor) (t : Token), c.next = (.ok t, c') → t.kind = .number →
    Binary64.read? t.literal = some (Binary64.ofNumeral t.literal.toList)
  operators : ∀ (op : Operator) (x y : Binary64), op.apply? x y = some (op.apply x y)
  functions : ∀ (f : Function) (xs : List Binary64), f.apply? xs = some (f.apply xs)
  factorials : ∀ x : Binary64, x.factorial? = some x.factorial

/-- **All conversions succeed**, whatever the library is. -/
theorem conversionsSucceed [Numerics] : ConversionsSucceed where
  literals := fun _ _ _ read kind => (Cursor.numeral_of_next read kind).read?_eq
  operators := Operator.apply?_eq
  functions := Function.apply?_eq
  factorials := Binary64.factorial?_eq

/-! ## Limits that cannot be written -/

/-- An evaluation runs into a limit that **cannot be written**: the limit has too many digits and is
negative, so that every text is too long for it, or every bracket too deep. -/
inductive Limits.Unwritable (limits : Limits) : Option String → Prop
  | length (s : String) (below : limits.maxLength < 0) (overlong : isOverlong limits.maxLength = true) :
      limits.Unwritable (some s)
  | depth {source : Option String} {f : Fault} (fits : limitLength source limits.maxLength = .ok ())
      (below : limits.maxDepth < 0) (overlong : isOverlong limits.maxDepth = true)
      (deep : assemble source limits.maxDepth = .error f) (kind : f.kind = .nestingTooDeep) :
      limits.Unwritable source

/-- Limits that can be written do no harm. -/
theorem Limits.not_unwritable {limits : Limits} (length : isOverlong limits.maxLength = false)
    (depth : isOverlong limits.maxDepth = false) (source : Option String) :
    ¬ limits.Unwritable source := by
  intro h
  cases h with
  | length s below overlong => exact Bool.false_ne_true (length.symm.trans overlong)
  | depth fits below overlong deep kind => exact Bool.false_ne_true (depth.symm.trans overlong)

/-- The fault of an expression that is too long. -/
theorem exists_of_limitLength_error {source : Option String} {maxLength : Int} {f : Fault}
    (h : limitLength source maxLength = .error f) : ∃ s, source = some s ∧ maxLength < s.length ∧
      f = ⟨.inputTooLong s.length maxLength, s, maxLength, s.length - maxLength⟩ := by
  cases source with
  | none => cases h
  | some s =>
    rw [limitLength] at h
    split at h
    · next hlong =>
      cases h
      exact ⟨s, rfl, hlong, rfl⟩
    · cases h

section Compiling

variable {source : Option String} {limits : Limits} {p : Program} {e : Failure}

/-- An expression that is short enough is handed to the assembler. -/
theorem compile_eq_parse (fits : limitLength source limits.maxLength = .ok ()) :
    compile limits source = parse source limits.maxDepth := by
  rw [compile, fits]
  rfl

/-- A program within limits is one of the expression. -/
theorem assemble_of_compile (h : compile limits source = .ok p) :
    assemble source limits.maxDepth = .ok p := by
  rw [compile] at h
  cases hlimit : limitLength source limits.maxLength with
  | error g =>
    rw [hlimit] at h
    cases h
  | ok _ =>
    rw [hlimit] at h
    exact parse_eq_ok_iff.mp h

/-- The fault that is reported of an expression without a program is that of its length or of its
assembly. -/
theorem cases_of_compile_fault {f : Fault} (h : compile limits source = .error (.fault f)) :
    limitLength source limits.maxLength = .error f ∨ assemble source limits.maxDepth = .error f := by
  cases hlimit : limitLength source limits.maxLength with
  | error g =>
    rw [compile, hlimit] at h
    obtain ⟨-, rfl⟩ := Failure.ofFault_eq_fault_iff.mp (Except.error.inj h)
    exact .inl rfl
  | ok _ =>
    rw [compile_eq_parse hlimit] at h
    cases hassemble : assemble source limits.maxDepth with
    | ok p => cases (parse_eq_ok_iff.mpr hassemble).symm.trans h
    | error g =>
      have hfault := Except.error.inj ((parse_eq_error hassemble).symm.trans h)
      obtain ⟨-, rfl⟩ := Failure.ofFault_eq_fault_iff.mp hfault
      exact .inr rfl

/-- **An expression without a program** has a fault that refuses it, unless a limit cannot be written. -/
theorem refusesExpression_of_compile_error (h : compile limits source = .error e) :
    (∃ f, e = .fault f ∧ f.category.RefusesExpression) ∧ ¬ limits.Unwritable source ∨
      e = .excess .digitsWritten ∧ limits.Unwritable source := by
  -- a fault that can be reported is, and no limit is to blame
  have hfault : ∀ f : Fault, compile limits source = .error (.ofFault f) →
      f.category.RefusesExpression → (f.cause.isOverlong = true ↔ limits.Unwritable source) →
      (∃ f, e = .fault f ∧ f.category.RefusesExpression) ∧ ¬ limits.Unwritable source ∨
        e = .excess .digitsWritten ∧ limits.Unwritable source := by
    intro f hf hrefuses hiff
    obtain rfl := Except.error.inj (h.symm.trans hf)
    cases hoverlong : f.cause.isOverlong with
    | false =>
      rw [Failure.ofFault_of_short hoverlong]
      rw [hoverlong] at hiff
      exact .inl ⟨⟨f, rfl, hrefuses⟩, fun hlimits => Bool.false_ne_true (hiff.mpr hlimits)⟩
    | true =>
      rw [Failure.ofFault_of_overlong hoverlong]
      exact .inr ⟨rfl, hiff.mp hoverlong⟩
  cases hlimit : limitLength source limits.maxLength with
  | error g =>
    obtain ⟨s, rfl, hlong, rfl⟩ := exists_of_limitLength_error hlimit
    refine hfault _ (by rw [compile, hlimit]; rfl) (.inl rfl) ?_
    rw [Cause.isOverlong, isOverlong_min_zero_iff]
    constructor
    · exact fun ⟨below, overlong⟩ => .length s below overlong
    · intro hlimits
      cases hlimits with
      | length _ below overlong => exact ⟨below, overlong⟩
      | depth fits => cases hlimit.symm.trans fits
  | ok _ =>
    rw [compile_eq_parse hlimit] at h hfault
    cases hassemble : assemble source limits.maxDepth with
    | ok p => cases h.symm.trans (parse_eq_ok_iff.mpr hassemble)
    | error f =>
      refine hfault f (parse_eq_error hassemble) (category_of_assemble_error hassemble) ?_
      rw [isOverlong_iff_of_assemble_error hassemble, isOverlong_min_zero_iff]
      constructor
      · exact fun ⟨kind, below, overlong⟩ => .depth hlimit below overlong hassemble kind
      · intro hlimits
        cases hlimits with
        | length s below overlong =>
          -- no text is short enough
          rw [limitLength, if_pos (by omega)] at hlimit
          cases hlimit
        | depth fits below overlong deep kind =>
          obtain rfl := Except.error.inj (hassemble.symm.trans deep)
          exact ⟨kind, below, overlong⟩

/-- An expression with a program runs into no limit. -/
theorem not_unwritable_of_compile (h : compile limits source = .ok p) : ¬ limits.Unwritable source := by
  intro hlimits
  cases hlimits with
  | length s below overlong =>
    rw [compile, limitLength, if_pos (by omega)] at h
    cases h
  | depth fits below overlong deep kind => cases (assemble_of_compile h).symm.trans deep

/-- **An evaluation fails** with a fault of the expression or the refusal of a reducer, unless a limit
cannot be written. -/
theorem refusesEvaluation_of_evaluate_error [Numerics] (h : evaluate limits source = .error e) :
    (∃ f, e = .fault f ∧ f.RefusesEvaluation) ∧ ¬ limits.Unwritable source ∨
      e = .excess .digitsWritten ∧ limits.Unwritable source := by
  rw [evaluate] at h
  cases hcompile : compile limits source with
  | error e' =>
    rw [hcompile] at h
    cases h
    rcases refusesExpression_of_compile_error hcompile with ⟨⟨f, rfl, hrefuses⟩, hlimits⟩ | hexcess
    · exact .inl ⟨⟨f, rfl, .inl hrefuses⟩, hlimits⟩
    · exact .inr hexcess
  | ok p =>
    rw [hcompile] at h
    have hsettles := settles_of_assemble (assemble_of_compile hcompile)
    obtain ⟨f, -, -, -, rfl, hcategory, hkind, -⟩ := hsettles.error_iff.2 e h
    exact .inl ⟨⟨f, rfl, .inr ⟨hcategory, hkind⟩⟩, not_unwritable_of_compile hcompile⟩

/-- A value is found without running into a limit. -/
theorem not_unwritable_of_evaluate [Numerics] {value : Binary64} (h : evaluate limits source = .ok value) :
    ¬ limits.Unwritable source := by
  rw [evaluate] at h
  cases hcompile : compile limits source with
  | error e =>
    rw [hcompile] at h
    cases h
  | ok p => exact not_unwritable_of_compile hcompile

end Compiling

/-- **An evaluation fails only in expected ways**, unless it runs into a limit that cannot be written:
then its fault is not reported. All other faults are lexical, syntactic, those of an arity or the refusal
of a reducer; so every other evaluation has an outcome. A program that was assembled fails exactly when it
calls `single` or `singleordefault` with several arguments, and the fault points at the first such call.
No step on the way converts what cannot be converted. -/
theorem evaluate_contained [Numerics] (source : Option String) (limits : Limits) :
    (∀ e, evaluate limits source = .error e →
      (∃ f, e = .fault f ∧
        ((f.category = .lexical ∨ f.category = .syntactic ∨ f.category = .arity) ∨
          f.category = .evaluation ∧ f.kind = .domainError)) ∧ ¬ limits.Unwritable source ∨
      e = .excess .digitsWritten ∧ limits.Unwritable source) ∧
    (∀ maxDepth p, assemble source maxDepth = .ok p →
      ((∃ f, p.run = .error (.fault f) ∧ f.kind = .domainError) ↔
        ∃ i ∈ p.instructions, i.refused = true) ∧
      ∀ e, p.run = .error e → ∃ f before i after, e = .fault f ∧ f.category = .evaluation ∧
        f.kind = .domainError ∧ p.instructions = before ++ i :: after ∧ i.refused = true ∧
        (∀ j ∈ before, j.refused = false) ∧ f.source = p.source ∧ f.offset = i.span.offset ∧
        f.length = i.span.length) ∧
    ((∃ outcome, outcome? limits source = some outcome) ↔ ¬ limits.Unwritable source) ∧
    (isOverlong limits.maxLength = false → isOverlong limits.maxDepth = false →
      ¬ limits.Unwritable source) ∧
    ConversionsSucceed := by
  refine ⟨fun e h => refusesEvaluation_of_evaluate_error h,
    fun maxDepth p h => (settles_of_assemble h).error_iff, ?_,
    fun length depth => Limits.not_unwritable length depth source, conversionsSucceed⟩
  rw [outcome?]
  cases h : evaluate limits source with
  | ok value => exact iff_of_true ⟨_, rfl⟩ (not_unwritable_of_evaluate h)
  | error e =>
    rcases refusesEvaluation_of_evaluate_error h with ⟨⟨f, rfl, -⟩, hlimits⟩ | ⟨rfl, hlimits⟩
    · exact iff_of_true ⟨_, rfl⟩ hlimits
    · exact iff_of_false nofun (not_not_intro hlimits)

/-- A limit far below zero, on the length or on the brackets, leaves an evaluation without an outcome. -/
theorem evaluate_farBelowZero :
    evaluate { maxLength := farBelowZero } (some "1") = .error (.excess .digitsWritten) ∧
      evaluate { maxDepth := farBelowZero } (some "(1)") = .error (.excess .digitsWritten) ∧
      outcome? { maxLength := farBelowZero } (some "1") = none := by
  refine ⟨by decide +kernel, by decide +kernel, ?_⟩
  have hevaluate : evaluate { maxLength := farBelowZero } (some "1") =
      .error (.excess .digitsWritten) := by decide +kernel
  rw [outcome?, hevaluate]

end Reckoner
