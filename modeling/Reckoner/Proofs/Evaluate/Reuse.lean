import Mathlib.Data.List.Basic
import Reckoner.Proofs.Evaluate.Containment
import Reckoner.Proofs.Postfix.Passes
import Reckoner.Proofs.Postfix.Supply
import Reckoner.Proofs.Token.Tiling

/-! # Programs of an assembler that is used again

A pass that follows a fault writes its instructions after those of the unfinished expression, and what
waited then comes out between them. Nevertheless the program that it returns runs: only values can be
left over.

* **`settles_execute`** — instructions that find their operands, counting only, find them when they
  run.
* **`Program.Leaves`** — how a program can run that leaves `n` values.
* **`Assembler.Supplied.requests`, `Assembler.Supplied.ends`** — the assembler stays supplied through
  a pass.
* **`Bench.performAll_supplied`** — whatever was done before, at most one pass returns a program, and
  it runs. -/

namespace Reckoner

/-! ## Running instructions that find their operands -/

section Counted

variable (source : String)

/-- An instruction that is resolved and finds its operands settles. It leaves one value for them. -/
theorem Instruction.settles_execute [Numerics] {i : Instruction} (hi : i.Resolved) {stack : Stack}
    (enough : i.operands ≤ stack.length) :
    Settles source [i] (i.execute source stack) ∧
      ∀ stack', i.execute source stack = .ok stack' →
        stack'.length = stack.length - i.operands + 1 := by
  -- all instructions but calls have a value
  have hvalue : ∀ x rest, i.refused = false → i.execute source stack = .ok (x :: rest) →
      rest.length = stack.length - i.operands →
      Settles source [i] (i.execute source stack) ∧
        ∀ stack', i.execute source stack = .ok stack' →
          stack'.length = stack.length - i.operands + 1 := by
    intro x rest hrefused hexecute hlength
    rw [hexecute, ← hlength]
    refine ⟨(Settles.ok _).append_of_not_refused hrefused, ?_⟩
    rintro _ ⟨⟩
    rfl
  cases i with
  | unknown shown => exact hi.elim
  | number value span => exact hvalue value stack rfl rfl rfl
  | negate offset =>
    cases stack with
    | nil => exact absurd enough (Nat.not_succ_le_zero 0)
    | cons x rest => exact hvalue (-x) rest rfl rfl rfl
  | factorial offset =>
    cases stack with
    | nil => exact absurd enough (Nat.not_succ_le_zero 0)
    | cons x rest => exact hvalue x.factorial rest rfl rfl rfl
  | operation op offset =>
    match stack, enough with
    | y :: x :: rest, _ => exact hvalue (op.apply x y) rest rfl rfl rfl
    | [_], enough => exact absurd (Nat.le_of_succ_le_succ enough) (Nat.not_succ_le_zero 0)
    | [], enough => exact absurd enough (Nat.not_succ_le_zero 1)
  | call f arity span =>
    obtain ⟨hpositive, harity⟩ := hi
    have henough : arity ≤ stack.length := enough
    have htake : (stack.take arity).reverse.length = arity := by
      rw [List.length_reverse, List.length_take, Nat.min_eq_left henough]
    -- the arguments are on top
    have hexecute : Instruction.executeCall source f arity span
          ((stack.take arity).reverse.reverse ++ stack.drop arity) =
        (Tree.applyAt source f span (stack.take arity).reverse).map fun x => x :: stack.drop arity :=
      Tree.executeCall_reverse source htake harity (stack.drop arity)
    rw [List.reverse_reverse, List.take_append_drop] at hexecute
    have hne : (stack.take arity).reverse ≠ [] := by
      refine List.ne_nil_of_length_pos ?_
      rwa [htake]
    have hsettles := Tree.settles_applyAt source f span hne
    rw [htake] at hsettles
    rw [Instruction.execute, hexecute]
    refine ⟨hsettles.map _, ?_⟩
    intro stack' hstack'
    cases hvalue : Tree.applyAt source f span (stack.take arity).reverse with
    | error e =>
      rw [hvalue] at hstack'
      cases hstack'
    | ok x =>
      rw [hvalue] at hstack'
      cases hstack'
      rw [List.length_cons, List.length_drop]
      rfl

/-- **Instructions that find their operands settle**, and leave as many values as they count. -/
theorem settles_execute [Numerics] {is : List Instruction} (resolved : ∀ i ∈ is, i.Resolved) {stack : Stack}
    {n : Nat} (height : height? is stack.length = some n) :
    Settles source is (execute source is stack) ∧
      ∀ stack', execute source is stack = .ok stack' → stack'.length = n := by
  induction is generalizing stack with
  | nil =>
    cases height
    refine ⟨Settles.ok stack, ?_⟩
    rintro _ ⟨⟩
    rfl
  | cons i is ih =>
    obtain ⟨hi, his⟩ := List.forall_mem_cons.mp resolved
    obtain ⟨enough, hrest⟩ := height?_cons_eq_some_iff.mp height
    obtain ⟨hsettles, hlength⟩ := Instruction.settles_execute source hi enough
    have hexecute : execute source (i :: is) stack =
        (i.execute source stack).bind (execute source is) := by
      rw [execute]
      cases i.execute source stack <;> rfl
    -- the rest finds the stack with the height that was counted
    have hafter : ∀ stack', i.execute source stack = .ok stack' →
        height? is stack'.length = some n := by
      intro stack' hstack'
      rw [hlength stack' hstack']
      exact hrest
    rw [hexecute]
    refine ⟨hsettles.bind fun stack' hstack' => (ih his (hafter stack' hstack')).1, ?_⟩
    intro stack'' hstack''
    cases hfirst : i.execute source stack with
    | error e =>
      rw [hfirst] at hstack''
      cases hstack''
    | ok stack' =>
      rw [hfirst] at hstack''
      exact (ih his (hafter stack' hfirst)).2 stack'' hstack''

end Counted

/-- A program **leaves** so many values: how it can run. -/
structure Program.Leaves [Numerics] (n : Nat) (p : Program) : Prop where
  /-- Every instruction is known, and every call has as many arguments as its function takes. -/
  resolved : ∀ i ∈ p.instructions, i.Resolved
  /-- So many values are left, counting only. -/
  height : height? p.instructions 0 = some n
  /-- Every instruction that is reached finds its operands. -/
  supplied : ∀ before i after stack, p.instructions = before ++ i :: after →
    execute p.source before [] = .ok stack → i.operands ≤ stack.length
  /-- So many values are left when all instructions have run. -/
  leaves : ∀ stack, execute p.source p.instructions [] = .ok stack → stack.length = n
  /-- A run fails because several values are left, or because a reducer refuses its arguments. -/
  fails : ∀ e, p.run = .error e →
    e = .fault (.unplaced (.leftover n) p.source) ∧ 2 ≤ n ∨
      ∃ f, e = .fault f ∧ f.category = .evaluation ∧ f.kind = .domainError

/-- **Counting is enough** to know how a program can run. -/
theorem Program.leaves_of_height [Numerics] {p : Program} {n : Nat}
    (resolved : ∀ i ∈ p.instructions, i.Resolved)
    (height : height? p.instructions 0 = some n) (positive : 1 ≤ n) : p.Leaves n := by
  -- a program finds an empty stack
  have hrun : ∀ {is m}, (∀ i ∈ is, i.Resolved) → height? is 0 = some m →
      Settles p.source is (execute p.source is []) ∧
        ∀ stack, execute p.source is [] = .ok stack → stack.length = m := by
    intro is m his hm
    have hempty : height? is ([] : Stack).length = some m := hm
    exact settles_execute p.source his hempty
  obtain ⟨hsettles, hlength⟩ := hrun resolved height
  refine ⟨resolved, height, ?_, hlength, ?_⟩
  · intro before i after stack hsplit hstack
    rw [hsplit] at height resolved
    obtain ⟨m, hbefore, enough⟩ := exists_height_of_append height
    have hreached := hrun (fun j hj => resolved j (List.mem_append_left _ hj)) hbefore
    rwa [hreached.2 stack hstack]
  · intro e he
    rw [Program.run] at he
    split at he
    · next e' hexecute =>
      -- an instruction was refused
      cases he
      obtain ⟨f, -, -, -, hf, hcategory, hkind, -⟩ := hsettles.error_iff.2 e hexecute
      exact .inr ⟨f, hf, hcategory, hkind⟩
    · cases he
    · next stack hmany hexecute =>
      cases he
      have hn := hlength stack hexecute
      refine .inl ⟨by rw [hn], ?_⟩
      -- one value would have been the result
      have hone : stack.length ≠ 1 := by
        intro hlen
        obtain ⟨x, rfl⟩ := List.length_eq_one_iff.mp hlen
        exact hmany x rfl
      omega

/-! ## Supplied passes -/

namespace Assembler

variable {a a' : Assembler} {e e' : Expectation} {c c' : Cursor} {x k : Nat}

/-- **An assembler stays supplied while a pass is under way**, with the same excess. -/
theorem Supplied.requests (h : Supplied x e.surplus a) (hc : Coherent k a)
    (hrequests : Requests a e c a' e' c') : Supplied x e'.surplus a' := by
  induction hrequests with
  | first => exact h
  | next before read accepted ih =>
    obtain ⟨y, hy, hsame⟩ := (step_of_accept accepted).supplied ih (hc.requests before)
    rwa [hsame fun f hf => by cases hf] at hy

/-- When a program is complete, nothing waits. -/
theorem Coherent.eq_nil_of_complete (hc : Coherent k a) {t : Token}
    (hacc : a.accept e t = (.complete, a')) : a'.pending = [] ∧ a'.counts = [] := by
  cases step_of_accept hacc with
  | complete kind closed =>
    have hrel := hc.releaseToParen
    obtain ⟨qs, rest, hsplit, hqs, hstays, hrelease⟩ :=
      exists_release (fun _ => true) a.pending a.emitted
    have hpending : a.releaseToParen.pending = rest := by
      rw [Assembler.releaseToParen, hrelease]
    have hnil : a.releaseToParen.pending = [] := by
      have harranged := hrel.arranged
      rw [hpending] at harranged ⊢
      rcases harranged.eq_nil_or_paren hstays with hnil | ⟨o, below, hparen⟩
      · exact hnil
      · -- no bracket is open
        have hopen := closed (.paren o) (by rw [hsplit, hparen]; simp)
        cases hopen
    refine ⟨hnil, ?_⟩
    have hcounted := hrel.counted
    rw [hnil] at hcounted
    exact List.length_eq_zero_iff.mp hcounted

/-- **How a pass ends** for a supplied assembler: with a fault that leaves it supplied, or with a
program that leaves one value and the excess, at the end of the expression. -/
theorem Supplied.ends [Numerics] (h : Supplied x e.surplus a) (hc : Coherent k a)
    {result : Except Fault Program} (hends : Ends a e c result a' c') :
    (∃ f y, result = .error f ∧ Supplied y 0 a') ∨
      ∃ p, result = .ok p ∧ p.Leaves (x + 1) ∧ c'.rest = [] := by
  cases hends with
  | unreadable read => exact .inl ⟨_, _, rfl, h.fault rfl rfl rfl⟩
  | fault read accepted =>
    obtain ⟨y, hy, -⟩ := (step_of_accept accepted).supplied h hc
    exact .inl ⟨_, y, rfl, hy⟩
  | complete read accepted =>
    obtain ⟨y, hy, hsame⟩ := (step_of_accept accepted).supplied h hc
    obtain rfl := hsame fun f hf => by cases hf
    obtain ⟨hpending, hcounts⟩ := hc.eq_nil_of_complete accepted
    refine .inr ⟨_, rfl, ?_, Cursor.rest_of_next_finish read (finish_of_accept_complete accepted)⟩
    refine Program.leaves_of_height ?_ ?_ (Nat.le_add_left 1 y)
    · intro i hi
      exact hy.resolved i (List.mem_reverse.mp hi)
    · have hheight := hy.height
      rw [hpending, hcounts, owed_nil, Nat.zero_add, Nat.add_comm] at hheight
      exact hheight

/-- A pass that begins at the end of an expression meets a fault. -/
theorem run_of_rest_nil (a : Assembler) (h : c.rest = []) : ∃ f a' c',
    a.run c = (.error f, a', c') ∧ c'.rest = [] := by
  obtain ⟨t, c', hread, hlast⟩ := Cursor.next_of_rest_nil h
  obtain ⟨f, hf⟩ := acceptOperand_finish (a := a) hlast
  have haccept : a.accept .operand t = (.fault f, (a.acceptOperand t).2) := by
    rw [accept, if_neg (by rw [hlast]; decide)]
    exact Prod.ext hf rfl
  exact ⟨f, _, c', resume_of_fault hread haccept, Cursor.rest_of_next_finish hread hlast⟩

end Assembler

/-! ## Benches -/

namespace Bench

/-- No pass has returned a program yet, and the assembler is supplied. -/
structure Unfinished (b : Bench) : Prop where
  faults : ∀ r ∈ b.results, ∃ f, r = .error f
  /-- Without a fault nothing is in excess. -/
  supplied : ∃ x, b.assembler.Supplied x 0 ∧ (b.results = [] → x = 0)

/-- One pass has returned a program, which ended the expression. -/
structure Finished [Numerics] (b : Bench) : Prop where
  spent : b.cursor.rest = []
  returned : ∃ later p earlier n, b.results = later ++ .ok p :: earlier ∧
    (∀ r ∈ later ++ earlier, ∃ f, r = .error f) ∧ p.Leaves (n + 1) ∧ (earlier = [] → n = 0)

/-- **An action keeps a bench** unfinished or finished, or finishes it. -/
theorem perform_supplied [Numerics] {b : Bench} (hc : b.assembler.Coherent (Assembler.refusals b.results))
    (h : b.Unfinished ∨ b.Finished) (action : Action) :
    (b.perform action).Unfinished ∨ (b.perform action).Finished := by
  cases action with
  | next =>
    rcases h with h | h
    · exact .inl ⟨h.faults, h.supplied⟩
    · obtain ⟨t, c', hread, hlast⟩ := Cursor.next_of_rest_nil h.spent
      refine .inr ⟨?_, h.returned⟩
      show b.cursor.next.2.rest = []
      rw [hread]
      exact Cursor.rest_of_next_finish hread hlast
  | assemble =>
    rcases h with h | h
    · obtain ⟨x, hsupplied, hfirst⟩ := h.supplied
      obtain ⟨a, e, c, hrequests, hends⟩ := Assembler.exists_ends b.assembler .operand b.cursor
      have hmoment := hsupplied.requests (e := .operand) hc hrequests
      rcases hmoment.ends (hc.requests hrequests) hends with ⟨f, y, hresult, hy⟩ | ⟨p, hresult, hp, hspent⟩
      · refine .inl ⟨?_, y, hy, fun hnil => absurd hnil (List.cons_ne_nil _ _)⟩
        exact List.forall_mem_cons.mpr ⟨⟨f, hresult⟩, h.faults⟩
      · refine .inr ⟨hspent, [], p, b.results, x, ?_, h.faults, hp, hfirst⟩
        rw [← hresult]
        rfl
    · -- nothing is left to read
      obtain ⟨f, a', c', hrun, hspent⟩ := Assembler.run_of_rest_nil b.assembler h.spent
      obtain ⟨later, p, earlier, n, hresults, hfaults, hp, hfirst⟩ := h.returned
      have hperform : b.perform .assemble = ⟨a', c', .error f :: b.results⟩ := by
        rw [perform, hrun]
      rw [hperform]
      refine .inr ⟨hspent, .error f :: later, p, earlier, n, ?_, ?_, hp, hfirst⟩
      · rw [hresults]
        rfl
      · exact List.forall_mem_cons.mpr ⟨⟨f, rfl⟩, hfaults⟩

/-- **So does every sequence of actions.** -/
theorem unfinished_or_finished [Numerics] {b : Bench}
    (hc : b.assembler.Coherent (Assembler.refusals b.results)) (h : b.Unfinished ∨ b.Finished)
    (actions : List Action) :
    (b.performAll actions).Unfinished ∨ (b.performAll actions).Finished := by
  induction actions generalizing b with
  | nil => exact h
  | cons action actions ih => exact ih (coherent_perform hc action) (perform_supplied hc h action)

/-- **At most one pass returns a program, and it runs.** Whatever passes and tokens read in between
came before, its instructions find their operands and its calls have as many arguments as their
functions take. It leaves one value at least, and exactly one when no pass before it met a fault. It
can fail only because several values are left over, or because a reducer refuses its arguments. -/
theorem performAll_supplied [Numerics] (c : Cursor) (maxDepth : Int) (actions : List Action) :
    (((start c maxDepth).performAll actions).results.countP fun r => r.isOk) ≤ 1 ∧
      ∀ later p earlier,
        ((start c maxDepth).performAll actions).results = later ++ .ok p :: earlier →
        ∃ n, 1 ≤ n ∧ p.Leaves n ∧ ((∀ f, .error f ∉ earlier) → n = 1) := by
  have hstart : (start c maxDepth).Unfinished :=
    ⟨by simp [start], 0, Assembler.supplied_start c.source maxDepth, fun _ => rfl⟩
  have hcoherent : (start c maxDepth).assembler.Coherent
      (Assembler.refusals (start c maxDepth).results) :=
    Assembler.coherent_start c.source maxDepth
  -- a fault is no program
  have hcount : ∀ {rs : List (Except Fault Program)}, (∀ r ∈ rs, ∃ f, r = .error f) →
      (rs.countP fun r => r.isOk) = 0 := by
    intro rs hrs
    rw [List.countP_eq_zero]
    intro r hr
    obtain ⟨f, rfl⟩ := hrs r hr
    exact Bool.false_ne_true
  have hnone : ∀ {rs : List (Except Fault Program)} {p : Program}, (∀ r ∈ rs, ∃ f, r = .error f) →
      .ok p ∉ rs := by
    intro rs p hrs hp
    obtain ⟨f, hf⟩ := hrs _ hp
    cases hf
  rcases unfinished_or_finished hcoherent (.inl hstart) actions with h | h
  · refine ⟨by rw [hcount h.faults]; exact Nat.zero_le 1, ?_⟩
    intro later p earlier hresults
    exact absurd (hresults ▸ List.mem_append_right later (List.mem_cons_self ..)) (hnone h.faults)
  · obtain ⟨later, p, earlier, n, hresults, hfaults, hp, hfirst⟩ := h.returned
    obtain ⟨hlater, hearlier⟩ := List.forall_mem_append.mp hfaults
    rw [hresults]
    constructor
    · rw [List.countP_append, List.countP_cons_of_pos rfl, hcount hlater, hcount hearlier]
    · intro later' p' earlier' hsplit
      -- there is only one program among the results
      obtain ⟨rfl, hsame, rfl⟩ :=
        (List.append_cons_inj_of_notMem (hnone hlater) (hnone hearlier)).mp hsplit
      cases hsame
      refine ⟨n + 1, Nat.le_add_left 1 n, hp, ?_⟩
      intro hfresh
      have hempty : earlier = [] := by
        refine List.eq_nil_iff_forall_not_mem.mpr ?_
        intro r hr
        obtain ⟨f, rfl⟩ := hearlier r hr
        exact hfresh f hr
      rw [hfirst hempty]

/-- The second number of `1 2+3` ends the first pass. The second pass reads on after it and returns
a program that leaves the first number as well as the last. -/
theorem performAll_supplied_interrupted :
    ∃ p f, ((start (.atStart "1 2+3") 0).performAll [.assemble, .assemble]).results =
      [.ok p, .error f] ∧ p.Leaves 2 := by
  have hheights : ((start (.atStart "1 2+3") 0).performAll [.assemble, .assemble]).results.map
      (fun r => r.toOption.map fun p => height? p.instructions 0) = [some (some 2), none] := by
    decide +kernel
  -- the latest pass comes first
  obtain ⟨second, rest, hresults, hsecond, hrest⟩ := List.map_eq_cons_iff.mp hheights
  obtain ⟨first, none, rfl, hfirst, hnone⟩ := List.map_eq_cons_iff.mp hrest
  obtain rfl := List.map_eq_nil_iff.mp hnone
  cases first with
  | ok p => cases hfirst
  | error f =>
    cases second with
    | error f => cases hsecond
    | ok p =>
      obtain ⟨n, -, hp, -⟩ :=
        (performAll_supplied (.atStart "1 2+3") 0 [.assemble, .assemble]).2 [] p [.error f] hresults
      have hheight : height? p.instructions 0 = some 2 := Option.some.inj hsecond
      obtain rfl : n = 2 := Option.some.inj (hp.height.symm.trans hheight)
      exact ⟨p, f, hresults, hp⟩

end Bench

end Reckoner
