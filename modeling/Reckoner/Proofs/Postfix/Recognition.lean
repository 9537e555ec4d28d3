import Reckoner.Proofs.Expression.Grammar
import Reckoner.Proofs.Postfix.Arrangement
import Reckoner.Proofs.Postfix.Feed

/-! # What has been read is an expression

An assembler that goes on has read the beginning of an expression, and its stacks say which: every
open bracket waits with what stood before it. When the end token completes the program, no bracket
waits and the tokens before it are an expression.

* **`Awaits`** — token lists that one more operand makes an expression.
* **`Opened`** — the open brackets and calls of a stack, with their counters and the tokens that
  opened them.
* **`Assembler.Recognizes`** — how the state of an assembler agrees with the tokens it has read.
  One token preserves it (`Recognizes.accept`), and so does every list of them (`Recognizes.feed`).
* **`Assembler.derives_of_feed_complete`** — a program is completed only for an expression whose
  brackets nest within the limit. -/

namespace Reckoner

/-! ## Beginnings of expressions -/

/-- One more operand makes the tokens an expression. -/
def Awaits (part : List Token) : Prop :=
  ∀ xs, Derives .operand xs → Derives .expression (part ++ xs)

/-- An operand is due at the beginning. -/
@[simp] theorem awaits_nil : Awaits [] := fun _ h => .operand h

/-- And after a sign. -/
theorem Awaits.sign {part : List Token} (h : Awaits part) {s : Token} {negates : Bool}
    (kind : s.kind.sign? = some negates) : Awaits (part ++ [s]) := by
  intro xs hxs
  rw [List.append_assoc]
  exact h _ (.sign (TokenKind.mem_signs_iff.mpr ⟨negates, kind⟩) hxs)

/-- And after an operator. -/
theorem Derives.awaits_operator {ts : List Token} (h : Derives .expression ts) {t : Token}
    {op : Operator} (kind : t.kind.operator? = some op) : Awaits (ts ++ [t]) := by
  intro xs hxs
  rw [List.append_assoc]
  exact .operation h kind hxs

/-- Brackets in what awaits an operand are balanced. -/
theorem Awaits.openBrackets_eq_zero {part : List Token} (h : Awaits part) :
    openBrackets part = 0 := by
  -- any operand shows it
  have hone : Derives .operand [⟨.number, "0", 0⟩] := .factor (.primary (.number rfl))
  have hwhole := (h _ hone).openBrackets_eq_zero
  rwa [openBrackets_append, hone.openBrackets_eq_zero, Int.add_zero] at hwhole

/-! ## Open brackets -/

/-- Stacks whose top is an open bracket, if there is any, with the counters of their calls and the
tokens up to the innermost opening bracket or the last comma between its arguments. Brackets and calls
wait with the places of their tokens. -/
inductive Opened : List Pending → List Nat → List Token → Prop
  | nil : Opened [] [] []
  | group {qs base : List Pending} {counts : List Nat} {before part : List Token} {opening : Token}
      (below : Opened base counts before) (waiting : ∀ q ∈ qs, q.ComesOut fun _ => true)
      (awaits : Awaits part) (opens : opening.kind = .openParen) :
      Opened (.paren opening.offset :: (qs ++ base)) counts (before ++ (part ++ [opening]))
  | call {qs base : List Pending} {counts : List Nat} {before part args : List Token}
      {name opening : Token} {f : Function} {count : Nat} (below : Opened base counts before)
      (waiting : ∀ q ∈ qs, q.ComesOut fun _ => true) (awaits : Awaits part)
      (kind : name.kind = .function) (known : function? name.literal = some f)
      (opens : opening.kind = .openParen)
      (arguments : ∀ xs, Derives .expression xs → Derives (.arguments count) (args ++ xs)) :
      Opened (.paren opening.offset :: .call f name.offset :: (qs ++ base)) (count :: counts)
        (before ++ (part ++ name :: opening :: args))

namespace Opened

variable {base : List Pending} {counts : List Nat} {before : List Token}

/-- Nothing comes out of a stack with a bracket on top. -/
theorem stays (h : Opened base counts before) (ready : Pending → Bool) :
    ∀ q ∈ base.head?, ¬ q.ComesOut ready := by
  intro q hq hout
  cases h with
  | nil => cases hq
  | group below waiting awaits opens =>
    cases hq
    exact hout.2 rfl
  | call below waiting awaits kind known opens arguments =>
    cases hq
    exact hout.2 rfl

/-- What is known when a bracket with a call under it is on top. -/
theorem of_call {o n : Nat} {f : Function} {below : List Pending}
    (h : Opened (.paren o :: .call f n :: below) counts before) :
    ∃ qs base counts' count before' part name opening args, below = qs ++ base ∧
      o = Token.offset opening ∧ n = Token.offset name ∧ counts = count :: counts' ∧
      before = before' ++ (part ++ name :: opening :: args) ∧
      Opened base counts' before' ∧ (∀ q ∈ qs, q.ComesOut fun _ => true) ∧ Awaits part ∧
      name.kind = .function ∧ function? name.literal = some f ∧ opening.kind = .openParen ∧
      ∀ xs, Derives .expression xs → Derives (.arguments count) (args ++ xs) := by
  generalize hps : Pending.call f n :: below = ps at h
  cases h with
  | @group qs base _ _ _ _ opened waiting awaits opens =>
    -- no call waits under the bracket of a group
    cases qs with
    | nil =>
      rw [List.nil_append] at hps
      subst hps
      cases opened
    | cons q qs =>
      obtain ⟨rfl, -⟩ := List.cons.inj hps
      exact absurd rfl (waiting _ (List.mem_cons_self ..)).2
  | call opened waiting awaits kind known opens arguments =>
    obtain ⟨hcall, rfl⟩ := List.cons.inj hps
    obtain ⟨rfl, rfl⟩ := Pending.call.inj hcall
    exact ⟨_, _, _, _, _, _, _, _, _, rfl, rfl, rfl, rfl, rfl, opened, waiting, awaits, kind, known,
      opens, arguments⟩

/-- What is known when a bracket with no call under it is on top. -/
theorem of_group {o : Nat} {below : List Pending} (h : Opened (.paren o :: below) counts before)
    (plain : ∀ f name rest, below ≠ .call f name :: rest) :
    ∃ qs base before' part opening, below = qs ++ base ∧ before = before' ++ (part ++ [opening]) ∧
      Opened base counts before' ∧ (∀ q ∈ qs, q.ComesOut fun _ => true) ∧ Awaits part ∧
      opening.kind = .openParen := by
  cases h with
  | group opened waiting awaits opens =>
    exact ⟨_, _, _, _, _, rfl, rfl, opened, waiting, awaits, opens⟩
  | call => exact absurd rfl (plain _ _ _)

/-- The brackets that wait are those that the tokens leave open. -/
theorem openBrackets_eq (h : Opened base counts before) :
    openBrackets before = base.countP Pending.isParen := by
  induction h with
  | nil => rfl
  | @group qs base counts before part opening below waiting awaits opens ih =>
    have hqs := countP_of_comesOut waiting fun q => Pending.ComesOut.isParen_eq_false
    rw [countP_isParen_paren, List.countP_append, hqs, openBrackets_append, openBrackets_append, ih,
      awaits.openBrackets_eq_zero, openBrackets_of_open opens]
    omega
  | @call qs base counts before part args name opening f count below waiting awaits kind known
      opens arguments ih =>
    have hqs := countP_of_comesOut waiting fun q => Pending.ComesOut.isParen_eq_false
    -- the arguments so far are balanced, as one more of them shows
    have hone : Derives .expression [⟨.number, "0", 0⟩] :=
      .operand (.factor (.primary (.number rfl)))
    have hargs := (arguments _ hone).openBrackets_eq_zero
    rw [openBrackets_append, hone.openBrackets_eq_zero, Int.add_zero] at hargs
    rw [countP_isParen_paren, countP_isParen_call, List.countP_append, hqs, openBrackets_append,
      openBrackets_append, openBrackets_cons name, openBrackets_cons opening, ih,
      awaits.openBrackets_eq_zero, openBrackets_of_kind kind (by decide) (by decide),
      openBrackets_of_open opens, hargs]
    omega

end Opened

/-! ## States and what has been read -/

/-- What the expectation says of the tokens since the innermost opening bracket or the last comma
between its arguments. -/
def Expectation.Follows (tail : List Token) : Expectation → Prop
  | .operand => Awaits tail
  | .firstOperand .. => Awaits tail
  | .operator => ∃ part xs, tail = part ++ xs ∧ Awaits part ∧ Derives .operand xs
  | .bracket f offset => ∃ part name, tail = part ++ [name] ∧ Awaits part ∧ name.kind = .function ∧
    function? name.literal = some f ∧ offset = name.offset

/-- What stands between a name and its bracket opens none. -/
theorem Expectation.Follows.openBrackets_eq_zero {e : Expectation} {tail : List Token}
    (h : e.Follows tail) : openBrackets tail = 0 := by
  cases e with
  | operand => exact Awaits.openBrackets_eq_zero h
  | firstOperand f o => exact Awaits.openBrackets_eq_zero h
  | operator =>
    obtain ⟨part, xs, rfl, hpart, hxs⟩ := h
    rw [openBrackets_append, hpart.openBrackets_eq_zero, hxs.openBrackets_eq_zero]
    rfl
  | bracket f o =>
    obtain ⟨part, name, rfl, hpart, kind, -⟩ := h
    rw [openBrackets_append, hpart.openBrackets_eq_zero,
      openBrackets_of_kind kind (by decide) (by decide)]
    rfl

namespace Assembler

/-- The stacks of an assembler **agree** with the tokens that it has read. -/
inductive Agrees (a : Assembler) (us : List Token) (e : Expectation) : Prop
  | intro (qs base : List Pending) (before tail : List Token) (stack : a.pending = qs ++ base)
      (waiting : ∀ q ∈ qs, q.ComesOut fun _ => true) (opened : Opened base a.counts before)
      (read : us = before ++ tail) (follows : e.Follows tail)

/-- A new assembler agrees with no tokens. -/
theorem agrees_start (source : String) (maxDepth : Int) :
    (start source maxDepth).Agrees [] .operand :=
  ⟨[], [], [], [], rfl, by simp, .nil, rfl, awaits_nil⟩

namespace Agrees

variable {a : Assembler} {us : List Token} {e : Expectation} {t : Token}

/-- **The open brackets of the tokens are those that wait**. -/
theorem openBrackets_eq (h : a.Agrees us e) :
    openBrackets us = a.pending.countP Pending.isParen := by
  obtain ⟨qs, base, before, tail, stack, waiting, opened, rfl, follows⟩ := h
  have hqs := countP_of_comesOut waiting fun q => Pending.ComesOut.isParen_eq_false
  rw [stack, List.countP_append, hqs, openBrackets_append, opened.openBrackets_eq,
    follows.openBrackets_eq_zero]
  omega

/-- A token that is taken for an operand stands where one more operand makes an expression. After
the name of a function none is, for its bracket is next. -/
theorem of_takesOperand (h : a.Agrees us e) {rest : List Token} (calls : CallsOpen (us ++ t :: rest))
    (due : e.TakesOperand t) : a.Agrees us .operand := by
  obtain ⟨qs, base, before, tail, stack, waiting, opened, rfl, follows⟩ := h
  cases e with
  | operand => exact ⟨qs, base, before, tail, stack, waiting, opened, rfl, follows⟩
  | firstOperand f o => exact ⟨qs, base, before, tail, stack, waiting, opened, rfl, follows⟩
  | operator => exact due.elim
  | bracket f o =>
    -- the scanner promises the bracket
    obtain ⟨part, name, rfl, -, kind, -⟩ := follows
    refine absurd (calls (before ++ part) name t rest ?_ kind) due
    simp only [List.append_assoc, List.singleton_append]

/-- An operand has been read. -/
theorem operand (h : a.Agrees us .operand) {xs : List Token} (hxs : Derives .operand xs)
    (i : Instruction) : (a.emit i).Agrees (us ++ xs) .operator := by
  obtain ⟨qs, base, before, tail, stack, waiting, opened, rfl, follows⟩ := h
  exact ⟨qs, base, before, tail ++ xs, stack, waiting, opened, List.append_assoc .., tail, xs, rfl,
    follows, hxs⟩

/-- After a sign that negates. -/
theorem negation (h : a.Agrees us .operand) (kind : t.kind.sign? = some true) (o : Nat) :
    Agrees { a with pending := .negation o :: a.pending } (us ++ [t]) .operand := by
  obtain ⟨qs, base, before, tail, stack, waiting, opened, rfl, follows⟩ := h
  refine ⟨.negation o :: qs, base, before, tail ++ [t], congrArg _ stack, ?_, opened,
    List.append_assoc .., Awaits.sign follows kind⟩
  intro q hq
  rcases List.mem_cons.mp hq with rfl | hq
  · exact Pending.comesOut_negation rfl
  · exact waiting q hq

/-- After a plus sign. -/
theorem plus (h : a.Agrees us .operand) (kind : t.kind.sign? = some false) :
    a.Agrees (us ++ [t]) .operand := by
  obtain ⟨qs, base, before, tail, stack, waiting, opened, rfl, follows⟩ := h
  exact ⟨qs, base, before, tail ++ [t], stack, waiting, opened, List.append_assoc ..,
    Awaits.sign follows kind⟩

/-- After the name of a function. -/
theorem name (h : a.Agrees us .operand) {f : Function} (kind : t.kind = .function)
    (known : function? t.literal = some f) : a.Agrees (us ++ [t]) (.bracket f t.offset) := by
  obtain ⟨qs, base, before, tail, stack, waiting, opened, rfl, follows⟩ := h
  exact ⟨qs, base, before, tail ++ [t], stack, waiting, opened, List.append_assoc .., tail, t, rfl,
    follows, kind, known, rfl⟩

/-- After an opening bracket. -/
theorem group (h : a.Agrees us .operand) (kind : t.kind = .openParen) :
    Agrees { a with depth := a.depth + 1, pending := .paren t.offset :: a.pending } (us ++ [t])
      (.firstOperand none t.offset) := by
  obtain ⟨qs, base, before, tail, stack, waiting, opened, rfl, follows⟩ := h
  have hopened : Opened (.paren t.offset :: (qs ++ base)) a.counts (before ++ (tail ++ [t])) :=
    .group opened waiting follows kind
  rw [← stack, ← List.append_assoc] at hopened
  exact ⟨[], _, _, [], rfl, by simp, hopened, (List.append_nil _).symm, awaits_nil⟩

/-- After the opening bracket of a call. -/
theorem call {f : Function} {n : Nat} (h : a.Agrees us (.bracket f n)) (kind : t.kind = .openParen) :
    Agrees { a with
      depth := a.depth + 1
      pending := .paren t.offset :: .call f n :: a.pending
      counts := 1 :: a.counts } (us ++ [t]) (.firstOperand (some f) t.offset) := by
  obtain ⟨qs, base, before, tail, stack, waiting, opened, rfl, part, name, rfl, hpart, hname,
    known, rfl⟩ := h
  have hopened : Opened (.paren t.offset :: .call f name.offset :: (qs ++ base)) (1 :: a.counts)
      (before ++ (part ++ name :: t :: [])) :=
    .call opened waiting hpart hname known kind fun xs hxs => .argument hxs
  rw [← stack] at hopened
  refine ⟨[], _, _, [], rfl, by simp, hopened, ?_, awaits_nil⟩
  simp only [List.append_assoc, List.append_nil, List.cons_append, List.nil_append]

/-- What is read of an expression since the innermost bracket is an expression. -/
theorem exists_expression (h : a.Agrees us .operator) :
    ∃ base before tail, us = before ++ tail ∧ Derives .expression tail ∧
      Opened base a.counts before ∧ a.releaseToParen.pending = base := by
  obtain ⟨qs, base, before, tail, stack, waiting, opened, rfl, part, xs, rfl, hpart, hxs⟩ := h
  refine ⟨base, before, part ++ xs, rfl, hpart xs hxs, opened, ?_⟩
  rw [releaseToParen, stack, release_append waiting, release_of_head (opened.stays _)]

/-- After an operator. -/
theorem operator (h : a.Agrees us .operator) {op : Operator} (kind : t.kind.operator? = some op)
    (o : Nat) : (a.suspend op o).Agrees (us ++ [t]) .operand := by
  obtain ⟨qs, base, before, tail, stack, waiting, opened, rfl, part, xs, rfl, hpart, hxs⟩ := h
  -- some of what waits above the bracket comes out, the rest `rs` waits on
  obtain ⟨outs, rs, rfl, houts, hrs, -⟩ :=
    exists_release (Pending.bindsLeftOf op.precedence) qs []
  have hhead : ∀ q ∈ (rs ++ base).head?, ¬ q.ComesOut (Pending.bindsLeftOf op.precedence) := by
    cases rs with
    | nil => exact opened.stays _
    | cons r rs => exact hrs
  have hpending : (a.suspend op o).pending = .operation op o :: (rs ++ base) := by
    rw [suspend, stack, List.append_assoc, release_append houts, release_of_head hhead]
  refine ⟨.operation op o :: rs, base, before, _, hpending, ?_, opened, List.append_assoc ..,
    (hpart xs hxs).awaits_operator kind⟩
  intro q hq
  rcases List.mem_cons.mp hq with rfl | hq
  · exact Pending.comesOut_operation rfl
  · exact waiting q (List.mem_append_right outs hq)

/-- After a factorial mark. -/
theorem factorial (h : a.Agrees us .operator) (kind : t.kind = .factorial) (i : Instruction) :
    (a.emit i).Agrees (us ++ [t]) .operator := by
  obtain ⟨qs, base, before, tail, stack, waiting, opened, rfl, part, xs, rfl, hpart, hxs⟩ := h
  refine ⟨qs, base, before, _, stack, waiting, opened, List.append_assoc .., part, xs ++ [t], ?_,
    hpart, hxs.operand_factorial kind⟩
  rw [List.append_assoc]

/-- After a comma. -/
theorem comma (h : a.Agrees us .operator) (kind : t.kind = .comma) {o n : Nat} {f : Function}
    {below : List Pending} (top : a.releaseToParen.pending = .paren o :: .call f n :: below) :
    Agrees { a.releaseToParen with counts := a.counts.modifyHead (· + 1) } (us ++ [t]) .operand := by
  obtain ⟨base, before, tail, rfl, htail, opened, hbase⟩ := h.exists_expression
  rw [← hbase, top] at opened
  obtain ⟨qs, base, counts, count, before, part, name, opening, args, rfl, rfl, rfl, hcounts, rfl,
    opened, waiting, awaits, hname, known, opens, arguments⟩ := opened.of_call
  -- the argument that ends here is complete, and the next one is awaited
  have hargs : ∀ xs, Derives .expression xs →
      Derives (.arguments (count + 1)) (args ++ tail ++ [t] ++ xs) := by
    intro xs hxs
    rw [List.append_assoc]
    exact .comma (arguments tail htail) kind hxs
  have hopened : Opened (.paren opening.offset :: .call f name.offset :: (qs ++ base))
      (a.counts.modifyHead (· + 1)) (before ++ (part ++ name :: opening :: (args ++ tail ++ [t]))) := by
    rw [hcounts]
    exact .call opened waiting awaits hname known opens hargs
  refine ⟨[], _, _, [], top, by simp, hopened, ?_, awaits_nil⟩
  simp only [List.append_assoc, List.append_nil, List.cons_append]

/-- After the closing bracket of a call. -/
theorem closeCall (h : a.Agrees us .operator) (kind : t.kind = .closeParen) {o n : Nat}
    {f : Function} {below : List Pending}
    (top : a.releaseToParen.pending = .paren o :: .call f n :: below)
    (arity : ∀ m, f.arity? = some m → a.counts.headD 1 = m) (i : Instruction) :
    ((a.afterCall below).emit i).Agrees (us ++ [t]) .operator := by
  obtain ⟨base, before, tail, rfl, htail, opened, hbase⟩ := h.exists_expression
  rw [← hbase, top] at opened
  obtain ⟨qs, base, counts, count, before, part, name, opening, args, rfl, rfl, rfl, hcounts, rfl,
    opened, waiting, awaits, hname, known, opens, arguments⟩ := opened.of_call
  rw [hcounts] at arity
  -- the call goes on as an operand of what stood before its name
  have hcall : Derives .primary (name :: opening :: (args ++ tail ++ [t])) :=
    .call hname known opens (arguments tail htail) kind arity
  have hcounts' : (a.afterCall (qs ++ base)).counts = counts := by
    rw [afterCall, hcounts]
    rfl
  refine ⟨qs, base, before, part ++ name :: opening :: (args ++ tail ++ [t]), rfl, waiting, ?_, ?_,
    part, _, rfl, awaits, .factor (.primary hcall)⟩
  · rw [← hcounts'] at opened
    exact opened
  · simp only [List.append_assoc, List.cons_append]

/-- After any other closing bracket. -/
theorem closeGroup (h : a.Agrees us .operator) (kind : t.kind = .closeParen) {o : Nat}
    {below : List Pending} (top : a.releaseToParen.pending = .paren o :: below)
    (plain : ∀ f name rest, below ≠ .call f name :: rest) :
    Agrees { a.releaseToParen with pending := below, depth := a.depth - 1 } (us ++ [t])
      .operator := by
  obtain ⟨base, before, tail, rfl, htail, opened, hbase⟩ := h.exists_expression
  rw [← hbase, top] at opened
  obtain ⟨qs, base, before, part, opening, rfl, rfl, opened, waiting, awaits, opens⟩ :=
    opened.of_group plain
  have hgroup : Derives .primary (opening :: (tail ++ [t])) := .group opens htail kind
  refine ⟨qs, base, before, part ++ opening :: (tail ++ [t]), rfl, waiting, opened, ?_, part, _, rfl,
    awaits, .factor (.primary hgroup)⟩
  simp only [List.append_assoc, List.cons_append, List.nil_append]

/-- **One token preserves agreement**, if it leads on. -/
theorem accept {a' : Assembler} {e' : Expectation} (h : a.Agrees us e) {rest : List Token}
    (calls : CallsOpen (us ++ t :: rest)) (hacc : a.accept e t = (.continue e', a')) :
    a'.Agrees (us ++ [t]) e' := by
  cases step_of_accept hacc with
  | negation due kind => exact (h.of_takesOperand calls due).negation kind _
  | plus due kind => exact (h.of_takesOperand calls due).plus kind
  | number due kind =>
    exact (h.of_takesOperand calls due).operand (.factor (.primary (.number kind))) _
  | constant due kind known =>
    exact (h.of_takesOperand calls due).operand (.factor (.primary (.constant kind known))) _
  | name due kind known => exact (h.of_takesOperand calls due).name kind known
  | group due kind fits => exact (h.of_takesOperand calls due).group kind
  | call kind fits => exact h.call kind
  | operator kind => exact h.operator kind _
  | factorial kind => exact h.factorial kind _
  | comma kind top => exact h.comma kind top
  | closeCall kind top arity => exact h.closeCall kind top arity _
  | closeGroup kind top plain => exact h.closeGroup kind top plain

/-- When the program is complete, an expression has been read. -/
theorem derives_of_complete {a' : Assembler} (h : a.Agrees us e)
    (hacc : a.accept e t = (.complete, a')) : Derives .expression us := by
  cases step_of_accept hacc with
  | complete kind closed =>
    obtain ⟨qs, base, before, tail, stack, waiting, opened, rfl, part, xs, rfl, hpart, hxs⟩ := h
    -- no bracket waits, so nothing stands before the expression
    generalize a.counts = counts at opened
    cases opened with
    | nil => exact hpart xs hxs
    | @group _ _ _ _ _ opening =>
      have hmem : Pending.paren opening.offset ∈ a.pending := by simp [stack]
      cases closed _ hmem
    | @call _ _ _ _ _ _ _ opening =>
      have hmem : Pending.paren opening.offset ∈ a.pending := by simp [stack]
      cases closed _ hmem

end Agrees

/-! ## Passes -/

/-- An opening bracket that leads on fits within the limit. -/
theorem fits_of_accept_continue {a a' : Assembler} {e e' : Expectation} {t : Token}
    (hacc : a.accept e t = (.continue e', a')) (kind : t.kind = .openParen) :
    ((a.depth + 1 : Nat) : Int) ≤ a.maxDepth := by
  cases step_of_accept hacc with
  | group due _ fits => exact fits
  | call _ fits => exact fits
  | negation due sign => rw [kind] at sign; cases sign
  | plus due sign => rw [kind] at sign; cases sign
  | operator op =>
    rw [kind] at op
    cases op
  | number due kind' => rw [kind] at kind'; cases kind'
  | constant due kind' known => rw [kind] at kind'; cases kind'
  | name due kind' known => rw [kind] at kind'; cases kind'
  | factorial kind' => rw [kind] at kind'; cases kind'
  | comma kind' top => rw [kind] at kind'; cases kind'
  | closeCall kind' top arity => rw [kind] at kind'; cases kind'
  | closeGroup kind' top plain => rw [kind] at kind'; cases kind'

/-- A step leaves the limit as it is. -/
theorem Step.maxDepth_eq {a a' : Assembler} {t : Token} {e : Expectation} {progress : Progress}
    (step : Step a t e progress a') : a'.maxDepth = a.maxDepth := by
  cases step <;> rfl

/-- So does every token. -/
theorem maxDepth_of_accept {a a' : Assembler} {e : Expectation} {t : Token} {progress : Progress}
    (hacc : a.accept e t = (progress, a')) : a'.maxDepth = a.maxDepth :=
  (step_of_accept hacc).maxDepth_eq

/-- An assembler has **recognized** the tokens it has read as the beginning of an expression. -/
structure Recognizes (limit : Int) (a : Assembler) (us : List Token) (e : Expectation) : Prop where
  agrees : a.Agrees us e
  /-- No bracket has been refused. -/
  coherent : Coherent 0 a
  limited : a.maxDepth = limit
  nests : NestsWithin limit us

/-- A new assembler has recognized no tokens. -/
theorem recognizes_start (source : String) (maxDepth : Int) :
    Recognizes maxDepth (start source maxDepth) [] .operand :=
  ⟨agrees_start source maxDepth, coherent_start source maxDepth, rfl, nestsWithin_nil _⟩

namespace Recognizes

variable {limit : Int} {a a' : Assembler} {us : List Token} {e e' : Expectation}

/-- **One token preserves it**, if it leads on. -/
theorem accept {t : Token} (h : Recognizes limit a us e) {rest : List Token}
    (calls : CallsOpen (us ++ t :: rest)) (hacc : a.accept e t = (.continue e', a')) :
    Recognizes limit a' (us ++ [t]) e' := by
  refine ⟨h.agrees.accept calls hacc, h.coherent.accept hacc,
    (maxDepth_of_accept hacc).trans h.limited, ?_⟩
  rw [nestsWithin_append, nestsWithin_cons]
  refine ⟨h.nests, ?_, nestsWithin_nil _⟩
  intro kind
  -- the depth is the number of brackets that the tokens leave open
  have hfits := fits_of_accept_continue hacc kind
  have hdepth := h.coherent.depth
  rw [h.limited] at hfits
  rw [h.agrees.openBrackets_eq]
  omega

/-- **A list of tokens preserves it**, if it leads on. -/
theorem feed {ts : List Token} (h : Recognizes limit a us e) {rest : List Token}
    (calls : CallsOpen (us ++ (ts ++ rest))) (hfeed : a.feed e ts = (.continue e', a')) :
    Recognizes limit a' (us ++ ts) e' := by
  induction ts generalizing a us e with
  | nil =>
    cases hfeed
    rwa [List.append_nil]
  | cons t ts ih =>
    rw [List.cons_append] at calls
    obtain ⟨e₁, a₁, hacc, hrest⟩ := accept_of_feed_continue hfeed
    -- the tokens read so far grow by one
    have hfurther := ih (h.accept calls hacc) (by rwa [List.append_assoc]) hrest
    rwa [List.append_assoc] at hfurther

end Recognizes

/-- **A program is completed only for an expression** whose brackets nest within the limit. -/
theorem derives_of_feed_complete {source : String} {maxDepth : Int} {ts : List Token} {last : Token}
    {a' : Assembler} (calls : CallsOpen (ts ++ [last])) (inner : ∀ t ∈ ts, t.kind ≠ .finish)
    (hfeed : (start source maxDepth).feed .operand (ts ++ [last]) = (.complete, a')) :
    Derives .expression ts ∧ NestsWithin maxDepth ts := by
  obtain ⟨e, a, hfirst, hlast⟩ := exists_of_feed_complete inner hfeed
  have h := (recognizes_start source maxDepth).feed calls hfirst
  exact ⟨h.agrees.derives_of_complete hlast, h.nests⟩

end Assembler

end Reckoner
