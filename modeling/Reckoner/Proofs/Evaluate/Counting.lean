import Reckoner.Proofs.Evaluate.Containment
import Reckoner.Proofs.Postfix.Height

/-! # Counting decides

Whether a program has a value can be told without computing anything. No instruction looks at the
numbers that it finds before it knows how many there are, and whether a function refuses its
arguments depends on how many it is given.

* **`Function.refusal?`** — why a function refuses a number of arguments.
* **`Instruction.objection?`** — why an instruction cannot be run on a stack of a given height.
* **`survey`** — the height of the stack after some instructions, or the first objection.
* **`map_length_execute`** — running instructions and surveying them stop at the same place.
* **`Program.run_surveyed`** — the outcome of every program. -/

namespace Reckoner

/-! ## Arguments -/

/-- Why a reducer refuses **so many arguments**. -/
def Reducer.refusal? : Reducer → Nat → Option Rejection
  | .min, 0 => some (.noExtremum false)
  | .max, 0 => some (.noExtremum true)
  | .first, 0 => some .noElement
  | .last, 0 => some .noElement
  | .single, n => if n = 1 then none else some (.notExactlyOne n)
  | .singleOrDefault, n => if n ≤ 1 then none else some (.moreThanOne n)
  | _, _ => none

/-- Why a function refuses **so many arguments**. Functions of fixed arity refuse nothing. -/
def Function.refusal? : Function → Nat → Option Rejection
  | .reducer f, n => f.refusal? n
  | _, _ => none

/-- What is left of a computation without the value: whether there is one. -/
def withoutValue {ε α : Type} (result : Except ε α) : Except ε Unit := result.map fun _ => ()

/-- A value is forgotten. -/
@[simp] theorem withoutValue_ok {ε α : Type} (value : α) :
    withoutValue (.ok value : Except ε α) = .ok () := rfl

/-- A failure is kept. -/
@[simp] theorem withoutValue_error {ε α : Type} (e : ε) :
    withoutValue (.error e : Except ε α) = .error e := rfl

/-- Whether a reducer refuses depends on the number of its arguments. -/
@[simp] theorem Reducer.withoutValue_apply [Numerics] (f : Reducer) (xs : List Binary64) :
    withoutValue (f.apply xs) = (f.refusal? xs.length).elim (.ok ()) .error := by
  match xs with
  | [] => cases f <;> rfl
  | [x] => cases f <;> rfl
  | x :: y :: rest => cases f <;> simp [Reducer.apply, Reducer.refusal?]

/-- **The number of arguments decides** whether a function has a value. -/
@[simp] theorem Function.withoutValue_apply [Numerics] (f : Function) (xs : List Binary64) :
    withoutValue (f.apply xs) = (f.refusal? xs.length).elim (.ok ()) .error := by
  have hfixed : ∀ f : Function, f.arity? ≠ none → f.refusal? xs.length = none →
      withoutValue (f.apply xs) = (f.refusal? xs.length).elim (.ok ()) .error := by
    intro f fixed hnone
    obtain ⟨value, hvalue⟩ := f.exists_apply xs fixed
    rw [hvalue, hnone]
    rfl
  cases f with
  | reducer f => exact f.withoutValue_apply xs
  | unary f => exact hfixed _ (Option.some_ne_none 1) rfl
  | binary f => exact hfixed _ (Option.some_ne_none 2) rfl
  | ternary f => exact hfixed _ (Option.some_ne_none 3) rfl

/-! ## Instructions -/

namespace Instruction

/-- The objection to an instruction that needs more operands than there are. -/
def shortage? (source : String) (i : Instruction) (demand : Demand) (height : Nat) :
    Option Failure :=
  if height < i.operands then some (i.lackingOperands source demand i.operands height) else none

/-- The failure of a call whose function refuses its arguments. -/
def refusalFailure (source : String) (f : Function) (span : Span) : Rejection → Failure
  | .noElement => .noElement
  | reason => .fault ⟨.domain f.name reason.message, source, span.offset, span.length⟩

/-- The **objection to an instruction** on a stack of the given height. What is unknown, and a call of a
function of fixed arity with another number of arguments, is objected to at any height; then operands
can be missing, and last the function may refuse them. The first two objections to a call name its arity. -/
def objection? (source : String) (i : Instruction) (height : Nat) : Option Failure :=
  match i with
  | .number .. => none
  | .negate _ => i.shortage? source .negation height
  | .factorial _ => i.shortage? source .factorial height
  | .operation op _ => i.shortage? source (.operation op.symbol) height
  | .call f arity span =>
    if f.arity?.any (· ≠ arity) then
      some (.ofFault ⟨.unresolvedArity f.name arity (f.arity?.getD arity), source, span.offset,
        span.length⟩)
    else
      (i.shortage? source (.call f.name) height).or
        ((f.refusal? arity).map (refusalFailure source f span))
  | .unknown shown => some (.fault (.unplaced (.unknownInstruction shown) source))

/-- An instruction is **malformed** when it is unknown, or a call of a function of fixed arity with
another number of arguments. -/
def Malformed : Instruction → Prop
  | .unknown _ => True
  | .call f arity _ => f.arity?.any (· ≠ arity) = true
  | _ => False

/-- An instruction **justifies** a failure at a height of the stack. The first or last of no arguments is
asked for; or there is a fault of a malformed instruction, of missing operands at the place of the
instruction, or of arguments that a function refuses at the span of the call. A malformed call, and one with
missing operands, leads to a message that cannot be written exactly when its arity has too many digits. -/
def Justifies (source : String) (i : Instruction) (height : Nat) : Failure → Prop
  | .noElement => ∃ g n span, i = .call g n span ∧ g.refusal? n = some .noElement
  | .excess e => e = .digitsWritten ∧ i.isOverlong = true ∧ (i.Malformed ∨ height < i.operands)
  | .fault f => f.source = source ∧
    (f.category = .invariant ∧ i.Malformed ∧ i.isOverlong = false ∨
      f.category = .evaluation ∧ f.kind = .missingOperand ∧ f.offset = i.span.offset ∧
        height < i.operands ∧ i.isOverlong = false ∨
      f.category = .evaluation ∧ f.kind = .domainError ∧
        (f.offset = i.span.offset ∧ f.length = i.span.length) ∧
        ∃ g n span reason, i = .call g n span ∧ n ≤ height ∧ g.refusal? n = some reason)

/-- A failure that a fault leads to is justified if the fault is, where it can be reported, and the arity
of a call keeps it from being reported otherwise. -/
theorem justifies_ofFault {source : String} {i : Instruction} {height : Nat} {f : Fault}
    (same : f.cause.isOverlong = i.isOverlong) (blamed : i.Malformed ∨ height < i.operands)
    (reported : i.isOverlong = false → i.Justifies source height (.fault f)) :
    i.Justifies source height (.ofFault f) := by
  cases h : i.isOverlong with
  | false =>
    rw [Failure.ofFault_of_short (same.trans h)]
    exact reported h
  | true =>
    rw [Failure.ofFault_of_overlong (same.trans h)]
    exact ⟨rfl, h, blamed⟩

/-- A shortage is justified if the message names the arity of a call, and no other count of operands. -/
theorem justifies_of_shortage {source : String} {i : Instruction} {demand : Demand} {height : Nat}
    {e : Failure} (h : i.shortage? source demand height = some e)
    (names : (Cause.missingOperands demand i.operands height).isOverlong = i.isOverlong) :
    i.Justifies source height e := by
  rw [shortage?] at h
  obtain ⟨short, hlacking⟩ := Option.ite_none_right_eq_some.mp h
  obtain rfl := Option.some.inj hlacking
  exact justifies_ofFault names (.inr short) fun hshort =>
    ⟨rfl, .inr (.inl ⟨rfl, rfl, rfl, short, hshort⟩)⟩

/-- **Every objection is justified.** -/
theorem justifies_of_objection {source : String} {i : Instruction} {height : Nat} {e : Failure}
    (h : i.objection? source height = some e) : i.Justifies source height e := by
  cases i with
  | number value span => cases h
  | negate offset => exact justifies_of_shortage h rfl
  | factorial offset => exact justifies_of_shortage h rfl
  | operation op offset => exact justifies_of_shortage h rfl
  | unknown shown =>
    cases h
    exact ⟨rfl, .inl ⟨rfl, trivial, rfl⟩⟩
  | call g n span =>
    rw [objection?] at h
    by_cases unresolved : g.arity?.any (· ≠ n) = true
    · rw [if_pos unresolved] at h
      obtain rfl := Option.some.inj h
      exact justifies_ofFault rfl (.inl unresolved) fun hshort =>
        ⟨rfl, .inl ⟨rfl, unresolved, hshort⟩⟩
    · rw [if_neg unresolved, Option.or_eq_some_iff] at h
      rcases h with short | ⟨hnone, hrefused⟩
      · exact justifies_of_shortage short rfl
      · have enough : n ≤ height := by
          refine Nat.le_of_not_lt fun short => ?_
          rw [shortage?, if_pos (show height < operands (.call g n span) from short)] at hnone
          cases hnone
        obtain ⟨reason, hreason, he⟩ := Option.map_eq_some_iff.mp hrefused
        cases reason with
        | noElement =>
          cases he
          exact ⟨g, n, span, rfl, hreason⟩
        | _ =>
          cases he
          exact ⟨rfl, .inr (.inr ⟨rfl, rfl, ⟨rfl, rfl⟩, g, n, span, _, rfl, enough, hreason⟩)⟩

/-- The height of the stack after one instruction, or the objection to it. -/
def surveyed (source : String) (i : Instruction) (height : Nat) : Except Failure Nat :=
  (i.objection? source height).elim (.ok (height - i.operands + 1)) .error

/-- **A call changes the height as the survey says**. -/
@[simp] theorem map_length_executeCall [Numerics] (source : String) (f : Function) (arity : Nat)
    (span : Span) (stack : Stack) :
    (executeCall source f arity span stack).map List.length =
      (Instruction.call f arity span).surveyed source stack.length := by
  rw [executeCall, surveyed, objection?]
  by_cases unresolved : f.arity?.any (· ≠ arity) = true
  · rw [if_pos unresolved, if_pos unresolved, Option.elim_some]
    rfl
  · rw [if_neg unresolved, if_neg unresolved, shortage?]
    by_cases short : stack.length < arity
    · rw [if_pos short, if_pos (show stack.length < operands (.call f arity span) from short)]
      rfl
    · rw [if_neg short, if_neg (show ¬ stack.length < operands (.call f arity span) from short),
        Option.none_or]
      have hlength : (stack.take arity).reverse.length = arity := by
        rw [List.length_reverse, List.length_take]
        omega
      have houtcome := f.withoutValue_apply (stack.take arity).reverse
      rw [hlength] at houtcome
      cases happly : f.apply (stack.take arity).reverse with
      | ok value =>
        rw [happly] at houtcome
        cases hrefusal : f.refusal? arity with
        | none =>
          have hrest : (value :: stack.drop arity).length = stack.length - arity + 1 := by simp
          exact congrArg Except.ok hrest
        | some reason =>
          rw [hrefusal] at houtcome
          cases houtcome
      | error reason =>
        rw [happly] at houtcome
        cases hrefusal : f.refusal? arity with
        | none =>
          rw [hrefusal] at houtcome
          cases houtcome
        | some reason' =>
          rw [hrefusal] at houtcome
          cases houtcome
          cases reason <;> rfl

/-- **One instruction**: what is computed has the height that is counted, and what is refused is
objected to. -/
@[simp] theorem map_length_execute [Numerics] (source : String) (i : Instruction) (stack : Stack) :
    (i.execute source stack).map List.length = i.surveyed source stack.length := by
  match i, stack with
  | .number value span, stack => rfl
  | .negate offset, [] => rfl
  | .negate offset, x :: rest => rfl
  | .factorial offset, [] => rfl
  | .factorial offset, x :: rest => rfl
  | .operation op offset, [] => rfl
  | .operation op offset, [x] => rfl
  | .operation op offset, x :: y :: rest => rfl
  | .call f arity span, stack => exact map_length_executeCall source f arity span stack
  | .unknown shown, stack => rfl

end Instruction

/-! ## Programs -/

/-- The **survey of instructions**: the height of the stack after them when they find it with the given
height, or the first objection. -/
def survey (source : String) : List Instruction → Nat → Except Failure Nat
  | [], height => .ok height
  | i :: rest, height =>
    match i.objection? source height with
    | none => survey source rest (height - i.operands + 1)
    | some e => .error e

/-- A survey goes on with the height after the first instruction. -/
@[simp] theorem survey_cons (source : String) (i : Instruction) (rest : List Instruction) (height : Nat) :
    survey source (i :: rest) height = (i.surveyed source height).bind (survey source rest) := by
  rw [survey, Instruction.surveyed]
  cases i.objection? source height <;> rfl

/-- **Running and surveying stop at the same place**, and if they come to the end, the stack has the
height that was counted. -/
@[simp] theorem map_length_execute [Numerics] (source : String) (is : List Instruction) (stack : Stack) :
    (execute source is stack).map List.length = survey source is stack.length := by
  induction is generalizing stack with
  | nil => rfl
  | cons i rest ih =>
    have hstep := i.map_length_execute source stack
    rw [execute, survey_cons, ← hstep]
    cases i.execute source stack with
    | ok stack' => exact ih stack'
    | error e => rfl

/-- A survey fails with the objection to an instruction after others without objection. -/
theorem survey_eq_error_iff {source : String} {is : List Instruction} {height : Nat} {e : Failure} :
    survey source is height = .error e ↔ ∃ before i after reached,
      is = before ++ i :: after ∧ survey source before height = .ok reached ∧
        i.objection? source reached = some e := by
  induction is generalizing height with
  | nil =>
    refine ⟨(fun h => nomatch h), ?_⟩
    rintro ⟨before, i, after, reached, his, -⟩
    simp at his
  | cons j rest ih =>
    rw [survey]
    cases hj : j.objection? source height with
    | some e' =>
      refine ⟨?_, ?_⟩
      · rintro ⟨⟩
        exact ⟨[], j, rest, height, rfl, rfl, hj⟩
      · rintro ⟨before, i, after, reached, his, hbefore, hi⟩
        cases before with
        | nil =>
          cases his
          cases hbefore
          rw [hj] at hi
          exact congrArg Except.error (Option.some.inj hi)
        | cons j' before =>
          -- the first instruction was objected to already
          cases his
          rw [survey, hj] at hbefore
          cases hbefore
    | none =>
      refine ih.trans ⟨?_, ?_⟩
      · rintro ⟨before, i, after, reached, rfl, hbefore, hi⟩
        refine ⟨j :: before, i, after, reached, rfl, ?_, hi⟩
        rw [survey, hj]
        exact hbefore
      · rintro ⟨before, i, after, reached, his, hbefore, hi⟩
        cases before with
        | nil =>
          cases his
          cases hbefore
          rw [hj] at hi
          cases hi
        | cons j' before =>
          cases his
          rw [survey, hj] at hbefore
          exact ⟨before, i, after, reached, rfl, hbefore, hi⟩

/-- The fault of a program that leaves so many values. -/
def leftoverFault (source : String) (height : Nat) : Fault := .unplaced (.leftover height) source

/-- Whether a program that leaves so many values has a result. -/
def concluded (source : String) (height : Nat) : Except Failure Unit :=
  if height = 1 then .ok () else .error (.fault (leftoverFault source height))

/-- The outcome of a program, as far as counting tells: an objection, or a fault of the height at the
end unless that is one. -/
@[simp] theorem Program.withoutValue_run [Numerics] (p : Program) :
    withoutValue p.run = (survey p.source p.instructions 0).bind (concluded p.source) := by
  have hlength := map_length_execute p.source p.instructions []
  rw [List.length_nil] at hlength
  rw [Program.run, ← hlength]
  cases execute p.source p.instructions [] with
  | error e => rfl
  | ok stack =>
    rcases stack with _ | ⟨x, _ | ⟨y, rest⟩⟩
    · rfl
    · rfl
    · have hheight : ¬ (x :: y :: rest).length = 1 := by simp
      have hconcluded : concluded p.source (x :: y :: rest).length = .error _ := if_neg hheight
      exact hconcluded.symm

/-! ## Values -/

/-- The instruction with another number, if it pushes one. -/
def Instruction.withNumber (value : Binary64) : Instruction → Instruction
  | .number _ span => .number value span
  | i => i

/-- Numbers do not change what is objected to. -/
@[simp] theorem Instruction.objection?_withNumber (source : String) (value : Binary64)
    (i : Instruction) (height : Nat) :
    (i.withNumber value).objection? source height = i.objection? source height := by
  cases i <;> rfl

/-- Nor what is needed. -/
@[simp] theorem Instruction.operands_withNumber (value : Binary64) (i : Instruction) :
    (i.withNumber value).operands = i.operands := by
  cases i <;> rfl

/-- The instructions with other numbers, one for each position. -/
def withNumbers (values : Nat → Binary64) (is : List Instruction) : List Instruction :=
  is.mapIdx fun n i => i.withNumber (values n)

/-- **A survey does not look at the numbers**. -/
@[simp] theorem survey_withNumbers (source : String) (values : Nat → Binary64) (is : List Instruction)
    (height : Nat) : survey source (withNumbers values is) height = survey source is height := by
  induction is generalizing values height with
  | nil => rfl
  | cons i rest ih =>
    have hcons : withNumbers values (i :: rest) =
        i.withNumber (values 0) :: withNumbers (fun n => values (n + 1)) rest := List.mapIdx_cons
    rw [hcons, survey, survey, Instruction.objection?_withNumber, Instruction.operands_withNumber,
      ih]

/-- The program with other numbers, one for each position. -/
def Program.withNumbers (p : Program) (values : Nat → Binary64) : Program :=
  { p with instructions := Reckoner.withNumbers values p.instructions }

/-! ## The outcome of a program -/

/-- **Counting decides the outcome of every program**, however it was made. It fails at the first
instruction to which there is an objection, with that objection; without one it fails with the height at
the end unless that is one, and then it has a value. An objection is a fault, unless the message of that
fault would name an arity of too many digits, or unless it is that there is no first or last argument.
Other numbers change nothing about this, and no conversion of a number fails. -/
theorem Program.run_surveyed [Numerics] (p : Program) :
    (∀ e, p.run = .error e ↔
      (∃ before i after height, p.instructions = before ++ i :: after ∧
        survey p.source before 0 = .ok height ∧ i.objection? p.source height = some e) ∨
      ∃ height, survey p.source p.instructions 0 = .ok height ∧ height ≠ 1 ∧
        e = .fault (leftoverFault p.source height)) ∧
    ((∃ value, p.run = .ok value) ↔ survey p.source p.instructions 0 = .ok 1) ∧
    (∀ (i : Instruction) (height : Nat) (e : Failure),
      i.objection? p.source height = some e → i.Justifies p.source height e) ∧
    (∀ values, withoutValue (p.withNumbers values).run = withoutValue p.run) ∧
    ConversionsSucceed := by
  have hrun := p.withoutValue_run
  have herror : ∀ e, p.run = .error e ↔ withoutValue p.run = .error e := by
    intro e
    cases p.run with
    | ok value => exact ⟨(fun h => nomatch h), (fun h => nomatch h)⟩
    | error e' => exact ⟨congrArg withoutValue, fun h => congrArg Except.error (Except.error.inj h)⟩
  have hok : (∃ value, p.run = .ok value) ↔ withoutValue p.run = .ok () := by
    cases p.run with
    | ok value => exact ⟨fun _ => rfl, fun _ => ⟨value, rfl⟩⟩
    | error e => exact ⟨(fun ⟨_, h⟩ => nomatch h), (fun h => nomatch h)⟩
  refine ⟨?_, ?_, fun _ _ _ => Instruction.justifies_of_objection, ?_,
    conversionsSucceed⟩
  · intro e
    rw [herror e, hrun, ← survey_eq_error_iff]
    cases survey p.source p.instructions 0 with
    | error e' => simp [Except.bind]
    | ok height =>
      by_cases hone : height = 1
      · simp [Except.bind, concluded, hone]
      · simp [Except.bind, concluded, hone, eq_comm]
  · rw [hok, hrun]
    cases survey p.source p.instructions 0 with
    | error e' => simp [Except.bind]
    | ok height =>
      by_cases hone : height = 1
      · simp [Except.bind, concluded, hone]
      · simp [Except.bind, concluded, hone]
  · intro values
    have hsame := survey_withNumbers p.source values p.instructions 0
    rw [hrun, (p.withNumbers values).withoutValue_run]
    exact congrArg (Except.bind · _) hsame

/-- Calls whose arity has too many digits lead to no fault: operands are missing for a `sum` of so many
arguments, and an `abs` of so many is malformed. -/
theorem Program.run_overlong :
    (Program.mk "" [.call (.reducer .sum) overlongFrom ⟨0, 0⟩]).run = .error (.excess .digitsWritten) ∧
      (Program.mk "" [.call (.unary .abs) overlongFrom ⟨0, 0⟩]).run =
        .error (.excess .digitsWritten) := by
  constructor <;> decide +kernel

/-- Missing operands come before the arguments that a function refuses. -/
example : (Instruction.call (.reducer .single) 2 ⟨4, 6⟩).objection? "" 1 =
    some (.fault ⟨.missingOperands (.call "single") 2 1, "", 4, 6⟩) := by decide +kernel

end Reckoner
