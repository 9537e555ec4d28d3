import Reckoner.Proofs.Postfix.Guards
import Reckoner.Proofs.Postfix.Reporting
import Reckoner.Session

/-! # Passes one after the other

An assembler keeps its stacks when a pass meets a fault, and the next pass goes on from there, with
the cursor wherever it is by then. This file follows one assembler and its cursor through any
sequence of passes and of tokens that are read in between.

* **`Bench`** — an assembler, its cursor, and what its passes came to; `Bench.perform` is what a
  session does with them (`Bench.perform_session`).
* **`Assembler.Orderly`** — the four properties of the stacks: every call has its bracket above it,
  every call has a counter, the depth counts brackets, and operators wait in the order of their
  precedence.
* **`Bench.answers`** — what the caller of the passes gets, who is told of a fault only if its message can
  be written.
* **`Bench.performAll_orderly`** — the four properties hold whenever a token is requested and whenever a
  pass ends, and no handler then reaches for what is not there. The depth counts the brackets that the
  caller is told of, unless the limit cannot be written. -/

namespace Reckoner

/-! ## The stretches of a stack -/

/-- What waits under an entry `top`: an arranged stack, or a call and an arranged stack when the
entry is a bracket. -/
def WaitsUnder (top : Option Pending) (ps : List Pending) : Prop :=
  Arranged ps ∨
    (∃ o, top = some (.paren o)) ∧ ∃ f name rest, ps = .call f name :: rest ∧ Arranged rest

/-- What waits below the first waits under it. -/
theorem WaitsUnder.tail {top : Option Pending} {q : Pending} {ps : List Pending}
    (h : WaitsUnder top (q :: ps)) : WaitsUnder (some q) ps := by
  rcases h with h | ⟨-, f, name, rest, hps, hrest⟩
  · cases h with
    | paren rest => exact .inl rest
    | @call o name f ps rest => exact .inr ⟨⟨o, rfl⟩, f, name, ps, rfl, rest⟩
    | negation rest => exact .inl rest
    | operation rest admits => exact .inl rest
  · obtain ⟨rfl, rfl⟩ := List.cons.inj hps
    exact .inl hrest

/-- What waits below others waits under the last of them. -/
theorem WaitsUnder.of_append {top : Option Pending} {above ps : List Pending}
    (h : WaitsUnder top (above ++ ps)) : WaitsUnder (above.getLast?.or top) ps := by
  induction above generalizing top with
  | nil => exact h
  | cons q above ih =>
    -- the last entry above is `q` itself when no other is
    have htail := ih h.tail
    rw [List.getLast?_cons]
    cases hlast : above.getLast? with
    | none =>
      rw [hlast] at htail
      exact htail
    | some last =>
      rw [hlast] at htail
      exact htail

/-- **Under any entries of an arranged stack** is an arranged stack, or a call with its bracket above
it. -/
theorem Arranged.waitsUnder {above ps : List Pending} (h : Arranged (above ++ ps)) :
    WaitsUnder above.getLast? ps := by
  have htop : WaitsUnder none (above ++ ps) := .inl h
  have happend := htop.of_append
  rwa [Option.or_none] at happend

/-- Negations over operators. -/
def stretch (negations : List Nat) (operations : List (Operator × Nat)) : List Pending :=
  negations.map Pending.negation ++ operations.map fun (op, o) => .operation op o

/-- There are no more numbers that fall than numbers below the bound. -/
theorem length_le_of_pairwise_gt {l : List Nat} (h : l.Pairwise (· > ·)) {n : Nat}
    (hn : ∀ x ∈ l, x < n) : l.length ≤ n := by
  induction l generalizing n with
  | nil => exact Nat.zero_le n
  | cons x l ih =>
    obtain ⟨hx, hl⟩ := List.pairwise_cons.mp h
    have hlength := ih hl hx
    have hfirst := hn x (List.mem_cons_self ..)
    rw [List.length_cons]
    omega

/-- What waits above the next bracket, if it does not begin with a call. -/
theorem Arranged.exists_stretch {ps below : List Pending} (h : Arranged (ps ++ below))
    (inner : ∀ p ∈ ps, p.isParen = false) :
    ∃ negations operations, ps = stretch negations operations ∧
      (operations.map fun o => o.1.precedence).Pairwise (· > ·) := by
  induction ps with
  | nil => exact ⟨[], [], rfl, .nil⟩
  | cons p ps ih =>
    have hps : ∀ q ∈ ps, q.isParen = false := fun q hq => inner q (List.mem_cons_of_mem p hq)
    have hp : p.isParen = false := inner p (List.mem_cons_self ..)
    rw [List.cons_append] at h
    generalize hrest : ps ++ below = rest at h
    cases h with
    | paren rest => cases hp
    | call rest => cases hp
    | negation rest =>
      obtain ⟨negations, operations, rfl, hordered⟩ := ih (hrest ▸ rest) hps
      exact ⟨_ :: negations, operations, rfl, hordered⟩
    | @operation op o _ rest admits =>
      obtain ⟨negations, operations, rfl, hordered⟩ := ih (hrest ▸ rest) hps
      subst hrest
      -- no sign waits under an operator
      cases negations with
      | cons n negations => exact absurd (Nat.le_trans admits op.precedence_le) (by decide)
      | nil =>
        refine ⟨[], (op, o) :: operations, rfl, ?_⟩
        rw [List.map_cons, List.pairwise_cons]
        refine ⟨?_, hordered⟩
        -- it binds more than the next one below, and so than all of them
        cases operations with
        | nil => simp
        | cons below operations =>
          have hbelow : below.1.precedence < op.precedence := admits
          rw [List.map_cons, List.pairwise_cons] at hordered
          intro n hn
          rcases List.mem_cons.mp hn with rfl | hn
          · exact hbelow
          · exact Nat.lt_trans (hordered.1 n hn) hbelow

/-! ## The properties of the stacks -/

/-- An assembler is **orderly** after so many brackets have been refused for being too deep. -/
structure Assembler.Orderly (refusals : Nat) (a : Assembler) : Prop where
  /-- Every call has its bracket directly above it. -/
  bracketed : ∀ above f name below, a.pending = above ++ .call f name :: below →
    ∃ above' o, above = above' ++ [.paren o]
  /-- Every call has a counter. -/
  counted : a.counts.length = a.pending.countP Pending.isCall
  /-- Every counter is positive. -/
  positive : ∀ n ∈ a.counts, 1 ≤ n
  /-- The depth counts the open brackets and the refused ones. -/
  depth : a.depth = a.pending.countP Pending.isParen + refusals
  /-- Between brackets wait, from the top down, at most one call, then negations, then at most four
  operators, each of which binds less than the one above it. -/
  ordered : ∀ above ps below, a.pending = above ++ (ps ++ below) →
    (∀ p ∈ ps, p.isParen = false) →
      ∃ (call : Option (Function × Nat)) (negations : List Nat) (operations : List (Operator × Nat)),
        ps = (call.toList.map fun (f, name) => Pending.call f name) ++
          stretch negations operations ∧
        (operations.map fun o => o.1.precedence).Pairwise (· > ·) ∧ operations.length ≤ 4

/-- At most four operators bind more and more. -/
theorem length_operations_le {operations : List (Operator × Nat)}
    (h : (operations.map fun o => o.1.precedence).Pairwise (· > ·)) : operations.length ≤ 4 := by
  rw [← List.length_map fun o : Operator × Nat => o.1.precedence]
  -- there are four precedences
  refine length_le_of_pairwise_gt h ?_
  intro n hn
  obtain ⟨o, -, rfl⟩ := List.mem_map.mp hn
  exact Nat.lt_succ_of_le o.1.precedence_le

/-- **Coherent assemblers are orderly.** -/
theorem Assembler.Coherent.orderly {a : Assembler} {k : Nat} (h : Coherent k a) : Orderly k a where
  bracketed := by
    intro above f name below hpending
    have harranged := h.arranged
    rw [hpending] at harranged
    rcases harranged.waitsUnder with hcall | ⟨⟨o, hlast⟩, -⟩
    · -- an arranged stack does not begin with a call
      cases hcall
    · obtain ⟨above', habove⟩ := List.getLast?_eq_some_iff.mp hlast
      exact ⟨above', o, habove⟩
  counted := h.counted
  positive := h.positive
  depth := h.depth
  ordered := by
    intro above ps below hpending inner
    have harranged := h.arranged
    rw [hpending] at harranged
    rcases harranged.waitsUnder with hrest | ⟨-, f, name, rest, hcall, hrest⟩
    · obtain ⟨negations, operations, rfl, hordered⟩ := hrest.exists_stretch inner
      exact ⟨none, negations, operations, rfl, hordered, length_operations_le hordered⟩
    · -- the stretch begins with the call, unless it is empty
      cases ps with
      | nil => exact ⟨none, [], [], rfl, .nil, Nat.zero_le 4⟩
      | cons p ps =>
        obtain ⟨rfl, rfl⟩ := List.cons.inj hcall
        have hps : ∀ q ∈ ps, q.isParen = false := fun q hq => inner q (List.mem_cons_of_mem _ hq)
        obtain ⟨negations, operations, rfl, hordered⟩ := hrest.exists_stretch hps
        exact ⟨some (f, name), negations, operations, rfl, hordered, length_operations_le hordered⟩

/-! ## Passes -/

namespace Assembler

variable {a a' : Assembler} {e e' : Expectation} {c c' : Cursor} {k : Nat}

/-- A pass that is under way has refused no bracket yet. -/
theorem Coherent.requests (h : Coherent k a) (hrequests : Requests a e c a' e' c') :
    Coherent k a' := by
  induction hrequests with
  | first => exact h
  | next before read accepted ih => exact ih.accept accepted

/-- How many brackets have been refused in passes that came to these results. -/
def refusals (results : List (Except Fault Program)) : Nat :=
  results.countP fun result =>
    match result with
    | .error f => f.kind = .nestingTooDeep
    | .ok _ => false

/-- A fault may be a refusal. -/
@[simp] theorem refusals_cons_error (f : Fault) (results : List (Except Fault Program)) :
    refusals (.error f :: results) = refusals results + (Progress.fault f).refusals := by
  rw [refusals, List.countP_cons, refusals, Progress.refusals]
  simp only [decide_eq_true_eq]

/-- A program is none. -/
@[simp] theorem refusals_cons_ok (p : Program) (results : List (Except Fault Program)) :
    refusals (.ok p :: results) = refusals results := by
  rw [refusals, List.countP_cons, refusals]
  rfl

/-- A fault that keeps a token from being read is no bracket that is too deep. -/
theorem refusals_of_lexical {f : Fault} (h : f.category = .lexical) :
    (Progress.fault f).refusals = 0 := by
  rw [Progress.refusals, if_neg]
  intro hkind
  obtain ⟨cause, source, offset, length⟩ := f
  cases cause with
  | nestingTooDeep limit => cases h
  | _ => cases hkind

/-- **A pass that ends** counts its refusal. -/
theorem Coherent.ends {results : List (Except Fault Program)} (h : Coherent (refusals results) a)
    {result : Except Fault Program} (hends : Ends a e c result a' c') :
    Coherent (refusals (result :: results)) a' := by
  cases hends with
  | unreadable read =>
    rw [refusals_cons_error, refusals_of_lexical (Cursor.category_of_next_error read)]
    exact h
  | fault read accepted =>
    rw [refusals_cons_error]
    exact h.accept accepted
  | complete read accepted =>
    rw [refusals_cons_ok]
    exact h.accept accepted

end Assembler

/-! ## Benches -/

/-- An assembler on its **bench**: its cursor is at hand, and what its passes came to is written
down. -/
structure Bench where
  assembler : Assembler
  /-- Where the assembler's tokens come from. -/
  cursor : Cursor
  /-- What the passes so far came to, the latest first. -/
  results : List (Except Fault Program)

namespace Bench

/-- What can be done on a bench. -/
inductive Action where
  /-- A pass of the assembler. -/
  | assemble
  /-- Reading a token from the cursor, past the assembler. -/
  | next

/-- A bench with a new assembler. -/
def start (c : Cursor) (maxDepth : Int) : Bench := ⟨.start c.source maxDepth, c, []⟩

/-- The bench after an action. -/
def perform (b : Bench) : Action → Bench
  | .assemble =>
    let (result, assembler, cursor) := b.assembler.run b.cursor
    ⟨assembler, cursor, result :: b.results⟩
  | .next => { b with cursor := b.cursor.next.2 }

/-- The bench after several actions, the first of the list first. -/
def performAll (b : Bench) (actions : List Action) : Bench := actions.foldl perform b

/-- The step of a session that an action is. -/
def Action.step : Action → Step
  | .assemble => .assemble
  | .next => .next

/-- What the caller of the passes got, the latest answer first. -/
def answers (b : Bench) : List (Except Failure Program) :=
  b.results.map fun result => result.mapError .ofFault

/-- The reply of a session that an answer is. -/
def replyOf : Except Failure Program → Reply
  | .ok p => .program p
  | .error e => .failure e

/-- A bench is **the assembler and the cursor of a session**: an action does to them what the
session's step does, and a pass is answered as the session replies. -/
theorem perform_session [Numerics] (b : Bench) (action : Action) {s : Session}
    (hcursor : s.cursor = some b.cursor) (hassembler : s.assembler = some (b.assembler, .current)) :
    (s.perform action.step).2.cursor = some (b.perform action).cursor ∧
      (s.perform action.step).2.assembler = some ((b.perform action).assembler, .current) ∧
      (action = .assemble →
        (b.perform action).answers.head?.map replyOf = some (s.perform action.step).1) := by
  cases action with
  | assemble =>
    simp only [Session.perform, Session.assemble, Action.step, hassembler, Session.cursorOf, hcursor,
      perform]
    rcases b.assembler.run b.cursor with ⟨f | p, a, c⟩ <;> exact ⟨rfl, rfl, fun _ => rfl⟩
  | next =>
    simp only [Session.perform, Session.next, Action.step, hcursor, perform]
    rcases b.cursor.next with ⟨f | t, c⟩ <;> exact ⟨rfl, hassembler, nofun⟩

/-- **An action keeps the assembler coherent.** -/
theorem coherent_perform {b : Bench} (h : b.assembler.Coherent (Assembler.refusals b.results))
    (action : Action) :
    (b.perform action).assembler.Coherent (Assembler.refusals (b.perform action).results) := by
  cases action with
  | next => exact h
  | assemble =>
    obtain ⟨a, e, c, hrequests, hends⟩ := Assembler.exists_ends b.assembler .operand b.cursor
    exact (h.requests hrequests).ends hends

/-- **So does every sequence of actions.** -/
theorem coherent_performAll {b : Bench} (h : b.assembler.Coherent (Assembler.refusals b.results))
    (actions : List Action) :
    (b.performAll actions).assembler.Coherent
      (Assembler.refusals (b.performAll actions).results) := by
  induction actions generalizing b with
  | nil => exact h
  | cons action actions ih => exact ih (coherent_perform h action)

/-! ## Answers -/

/-- The assembler on a bench has a **limit** on brackets, and the faults so far cannot be reported if and
only if they are those of brackets and the limit cannot be written. -/
structure HasLimit (maxDepth : Int) (b : Bench) : Prop where
  limit : b.assembler.maxDepth = maxDepth
  faults : ∀ f, .error f ∈ b.results →
    (f.cause.isOverlong = true ↔ f.kind = .nestingTooDeep ∧ isOverlong (min maxDepth 0) = true)

/-- An action keeps the limit. -/
theorem HasLimit.perform {maxDepth : Int} {b : Bench} (h : b.HasLimit maxDepth) (action : Action) :
    (b.perform action).HasLimit maxDepth := by
  cases action with
  | next => exact ⟨h.limit, h.faults⟩
  | assemble =>
    obtain ⟨a, e, c, hrequests, hends⟩ := Assembler.exists_ends b.assembler .operand b.cursor
    have hlimit : a.maxDepth = maxDepth := hrequests.maxDepth_eq.trans h.limit
    refine ⟨hends.maxDepth_eq.trans hlimit, fun f hf => ?_⟩
    rcases List.mem_cons.mp hf with hfault | hf
    · have hresult : (b.assembler.resume .operand b.cursor).1 = .error f := hfault.symm
      rw [hresult] at hends
      rw [hends.isOverlong_iff, hlimit]
    · exact h.faults f hf

/-- So does every sequence of actions. -/
theorem HasLimit.performAll {maxDepth : Int} {b : Bench} (h : b.HasLimit maxDepth)
    (actions : List Action) : (b.performAll actions).HasLimit maxDepth := by
  induction actions generalizing b with
  | nil => exact h
  | cons action actions ih => exact ih (h.perform action)

/-- How many answers report a bracket beyond the limit. -/
def reportedRefusals (answers : List (Except Failure Program)) : Nat :=
  answers.countP fun answer =>
    match answer with
    | .error (.fault f) => f.kind = .nestingTooDeep
    | _ => false

/-- How many answers stand for a fault that cannot be reported. -/
def unreportedFaults (answers : List (Except Failure Program)) : Nat :=
  answers.countP fun answer =>
    match answer with
    | .error (.excess _) => true
    | _ => false

/-- **If the limit can be written, every refusal is reported.** -/
theorem HasLimit.reportedRefusals_eq {maxDepth : Int} {b : Bench} (h : b.HasLimit maxDepth)
    (short : isOverlong (min maxDepth 0) = false) :
    reportedRefusals b.answers = Assembler.refusals b.results := by
  rw [reportedRefusals, answers, List.countP_map, Assembler.refusals]
  refine List.countP_congr fun result hmem => ?_
  cases result with
  | ok p => rfl
  | error f =>
    have hreports : f.cause.isOverlong = false := by
      rw [← Bool.not_eq_true, h.faults f hmem, short]
      exact fun hlimit => Bool.false_ne_true hlimit.2
    simp [Except.mapError, Failure.ofFault_of_short hreports]

/-- **If it cannot be written, none is**: each refusal is a fault that cannot be reported. -/
theorem HasLimit.unreportedFaults_eq {maxDepth : Int} {b : Bench} (h : b.HasLimit maxDepth)
    (overlong : isOverlong (min maxDepth 0) = true) :
    reportedRefusals b.answers = 0 ∧ unreportedFaults b.answers = Assembler.refusals b.results := by
  have hiff : ∀ f, .error f ∈ b.results → (f.cause.isOverlong = true ↔ f.kind = .nestingTooDeep) :=
    fun f hf => (h.faults f hf).trans (and_iff_left overlong)
  constructor
  · rw [reportedRefusals, answers, List.countP_map, List.countP_eq_zero]
    intro result hmem
    cases result with
    | ok p => exact Bool.false_ne_true
    | error f =>
      cases hoverlong : f.cause.isOverlong with
      | true => simp [Except.mapError, Failure.ofFault_of_overlong hoverlong]
      | false =>
        have hkind : f.kind ≠ .nestingTooDeep := fun hkind =>
          Bool.false_ne_true (hoverlong.symm.trans ((hiff f hmem).mpr hkind))
        simp [Except.mapError, Failure.ofFault_of_short hoverlong, hkind]
  · rw [unreportedFaults, answers, List.countP_map, Assembler.refusals]
    refine List.countP_congr fun result hmem => ?_
    cases result with
    | ok p => rfl
    | error f =>
      rw [decide_eq_true_iff, ← hiff f hmem]
      cases hoverlong : f.cause.isOverlong with
      | true => simp [Except.mapError, Failure.ofFault_of_overlong hoverlong]
      | false => simp [Except.mapError, Failure.ofFault_of_short hoverlong]

/-- **The stacks of an assembler are in order at every moment** of every sequence of passes and of
tokens read in between: whenever a pass has ended, and whenever one requests a token. Whatever the
token is, no handler then reaches for an entry or a counter that is not there, writes out a bracket
or a call as an instruction, or closes a call without arguments. The depth counts the open brackets and
those that have been refused; the refusals are the ones that the caller has been told of, unless the limit
on brackets cannot be written, when the caller is told of none. -/
theorem performAll_orderly (c : Cursor) (maxDepth : Int) (actions : List Action) :
    ∃ refusals : Nat,
      ((start c maxDepth).performAll actions).assembler.Orderly refusals ∧
      (∀ a e c', Assembler.Requests ((start c maxDepth).performAll actions).assembler .operand
          ((start c maxDepth).performAll actions).cursor a e c' →
        a.Orderly refusals ∧ ∀ t, a.accept? e t = some (a.accept e t)) ∧
      (isOverlong (min maxDepth 0) = false →
        refusals = reportedRefusals ((start c maxDepth).performAll actions).answers) ∧
      (isOverlong (min maxDepth 0) = true →
        reportedRefusals ((start c maxDepth).performAll actions).answers = 0 ∧
          refusals = unreportedFaults ((start c maxDepth).performAll actions).answers) := by
  have hstart : (start c maxDepth).assembler.Coherent
      (Assembler.refusals (start c maxDepth).results) :=
    Assembler.coherent_start c.source maxDepth
  have hcoherent := coherent_performAll hstart actions
  have hbegin : (start c maxDepth).HasLimit maxDepth :=
    ⟨rfl, fun _ hf => absurd hf List.not_mem_nil⟩
  have hlimit := hbegin.performAll actions
  refine ⟨_, hcoherent.orderly, fun a e c' hrequests => ?_,
    fun short => (hlimit.reportedRefusals_eq short).symm, fun overlong => ?_⟩
  · have h := hcoherent.requests hrequests
    exact ⟨h.orderly, h.accept?_eq e⟩
  · obtain ⟨hreported, hunreported⟩ := hlimit.unreportedFaults_eq overlong
    exact ⟨hreported, hunreported.symm⟩

/-- Under a limit far below zero, a bracket raises the depth, but it neither opens nor is its refusal
reported. -/
theorem performAll_farBelowZero :
    ((start (.atStart "(1)") farBelowZero).performAll [.assemble]).answers =
        [.error (.excess .digitsWritten)] ∧
      ¬ ((start (.atStart "(1)") farBelowZero).performAll [.assemble]).assembler.Orderly
        (reportedRefusals ((start (.atStart "(1)") farBelowZero).performAll [.assemble]).answers) := by
  have hanswers : ((start (.atStart "(1)") farBelowZero).performAll [.assemble]).answers =
      [.error (.excess .digitsWritten)] := by decide +kernel
  have hdepth : ((start (.atStart "(1)") farBelowZero).performAll [.assemble]).assembler.depth = 1 := by
    decide +kernel
  have hpending : ((start (.atStart "(1)") farBelowZero).performAll [.assemble]).assembler.pending =
      [] := by decide +kernel
  refine ⟨hanswers, fun horderly => ?_⟩
  have hcounts := horderly.depth
  rw [hdepth, hpending, hanswers] at hcounts
  cases hcounts

end Bench

end Reckoner
