import Reckoner.Postfix.Assembler

/-! # What one token does to an assembler

The effect of a token is spread over many handlers. This file says once everything that it can be,
so that an invariant of assemblers is one case analysis with a case for each effect.

* **`drain`** — the instructions after waiting entries have come out; `release` splits the stack into
  what comes out and what stays (`exists_release`).
* **`Expectation.TakesOperand`** — whether a token is taken for an operand or a sign.
* **`Assembler.Step`** — the effects of a token: each rule gives the condition, the progress and the
  assembler after it. Every token has one of them (`Assembler.step_accept`). -/

namespace Reckoner

/-! ## What comes out of the stack -/

/-- The instruction that a waiting entry becomes. Brackets and calls become none. -/
def Pending.instruction? : Pending → Option Instruction
  | .paren _ => none
  | .call .. => none
  | .negation offset => some (.negate offset)
  | .operation op offset => some (.operation op offset)

/-- The instructions, latest first, after the entries `qs` have come out, the first of them first. -/
def drain (qs : List Pending) (emitted : List Instruction) : List Instruction :=
  (qs.filterMap Pending.instruction?).reverse ++ emitted

/-- Nothing comes out. -/
@[simp] theorem drain_nil (emitted : List Instruction) : drain [] emitted = emitted := rfl

/-- What comes out first is emitted first. -/
theorem drain_cons {q : Pending} {i : Instruction} (h : q.instruction? = some i) (qs : List Pending)
    (emitted : List Instruction) : drain (q :: qs) emitted = drain qs (i :: emitted) := by
  rw [drain, drain, List.filterMap_cons_some h, List.reverse_cons, List.append_assoc,
    List.singleton_append]

/-- The first part comes out before the second. -/
@[simp] theorem drain_append (qs rs : List Pending) (emitted : List Instruction) :
    drain (qs ++ rs) emitted = drain rs (drain qs emitted) := by
  rw [drain, drain, drain, List.filterMap_append, List.reverse_append, List.append_assoc]

/-- Whether a waiting entry comes out when the entries that are ready do. -/
def Pending.ComesOut (ready : Pending → Bool) (q : Pending) : Prop :=
  ready q = true ∧ q.instruction? ≠ none

/-- A sign comes out when it is ready. -/
theorem Pending.comesOut_negation {ready : Pending → Bool} {o : Nat}
    (h : ready (.negation o) = true) : (Pending.negation o).ComesOut ready :=
  ⟨h, Option.some_ne_none _⟩

/-- And so does an operator. -/
theorem Pending.comesOut_operation {ready : Pending → Bool} {op : Operator} {o : Nat}
    (h : ready (.operation op o) = true) : (Pending.operation op o).ComesOut ready :=
  ⟨h, Option.some_ne_none _⟩

/-- Entries that come out do so, and the rest is looked at. -/
theorem release_append {ready : Pending → Bool} {qs : List Pending}
    (h : ∀ q ∈ qs, q.ComesOut ready) (ps : List Pending) (emitted : List Instruction) :
    release ready (qs ++ ps) emitted = release ready ps (drain qs emitted) := by
  induction qs generalizing emitted with
  | nil => rfl
  | cons q qs ih =>
    -- the first entry is ready, and it is no bracket and no call
    obtain ⟨hready, hsome⟩ := h q (List.mem_cons_self ..)
    have hqs : ∀ q ∈ qs, q.ComesOut ready := fun r hr => h r (List.mem_cons_of_mem q hr)
    cases q with
    | paren o => exact absurd rfl hsome
    | call f o => exact absurd rfl hsome
    | negation o =>
      rw [List.cons_append, release, if_pos hready, ih hqs, drain_cons rfl]
    | operation op o =>
      rw [List.cons_append, release, if_pos hready, ih hqs, drain_cons rfl]

/-- An entry that does not come out stops the release. -/
theorem release_of_head {ready : Pending → Bool} {ps : List Pending}
    (h : ∀ q ∈ ps.head?, ¬ q.ComesOut ready) (emitted : List Instruction) :
    release ready ps emitted = (ps, emitted) := by
  cases ps with
  | nil => rfl
  | cons q ps =>
    have hq : ¬ q.ComesOut ready := h q rfl
    cases q with
    | paren o => rfl
    | call f o => rfl
    | negation o =>
      rw [release, if_neg fun hready => hq (Pending.comesOut_negation hready)]
    | operation op o =>
      rw [release, if_neg fun hready => hq (Pending.comesOut_operation hready)]

/-- **A release splits the stack** into what comes out and what stays. -/
theorem exists_release (ready : Pending → Bool) (ps : List Pending) (emitted : List Instruction) :
    ∃ qs rest, ps = qs ++ rest ∧ (∀ q ∈ qs, q.ComesOut ready) ∧
      (∀ q ∈ rest.head?, ¬ q.ComesOut ready) ∧
      release ready ps emitted = (rest, drain qs emitted) := by
  induction ps generalizing emitted with
  | nil => exact ⟨[], [], rfl, by simp, by simp, rfl⟩
  | cons p ps ih =>
    -- the first entry that stays ends the part that comes out
    by_cases hp : p.ComesOut ready
    · obtain ⟨i, hi⟩ := Option.ne_none_iff_exists'.mp hp.2
      obtain ⟨qs, rest, rfl, hqs, hrest, hrelease⟩ := ih (drain [p] emitted)
      refine ⟨p :: qs, rest, rfl, ?_, hrest, ?_⟩
      · intro q hq
        rcases List.mem_cons.mp hq with rfl | hq
        · exact hp
        · exact hqs q hq
      · have hone : ∀ q ∈ [p], q.ComesOut ready := by
          intro q hq
          rw [List.mem_singleton.mp hq]
          exact hp
        have h := release_append hone (qs ++ rest) emitted
        rw [List.singleton_append] at h
        rw [h, hrelease, ← drain_append, List.singleton_append]
    · have hhead : ∀ q ∈ (p :: ps).head?, ¬ q.ComesOut ready := by
        intro q hq
        cases hq
        exact hp
      exact ⟨[], p :: ps, rfl, by simp, hhead, release_of_head hhead emitted⟩

namespace Assembler

variable {a : Assembler}

/-- Everything that waits above a bracket comes out when the stack is released down to it. -/
theorem releaseToParen_of_paren {qs below : List Pending} {o : Nat}
    (h : ∀ q ∈ qs, q.ComesOut fun _ => true) (hp : a.pending = qs ++ .paren o :: below) :
    a.releaseToParen =
      { a with pending := .paren o :: below, emitted := drain qs a.emitted } := by
  have hhead : ∀ q ∈ (Pending.paren o :: below).head?, ¬ q.ComesOut fun _ => true := by
    intro q hq hout
    cases hq
    exact hout.2 rfl
  rw [releaseToParen, hp, release_append h, release_of_head hhead]

/-- When no bracket is open everything comes out. -/
theorem releaseToParen_of_forall (h : ∀ q ∈ a.pending, q.ComesOut fun _ => true) :
    a.releaseToParen = { a with pending := [], emitted := drain a.pending a.emitted } := by
  have happend := release_append h [] a.emitted
  rw [List.append_nil] at happend
  rw [releaseToParen, happend]
  rfl

end Assembler

/-! ## The effects of a token -/

/-- Whether a token is **taken for an operand** or a sign. -/
def Expectation.TakesOperand (t : Token) : Expectation → Prop
  | .operand => True
  | .operator => False
  | .bracket .. => t.kind ≠ .openParen
  | .firstOperand .. => t.kind ≠ .closeParen

namespace Assembler

/-- The assembler after a call of so many arguments has left its stacks. -/
def afterCall (a : Assembler) (below : List Pending) : Assembler :=
  { a with
    pending := below
    emitted := a.releaseToParen.emitted
    counts := a.counts.tail
    depth := a.depth - 1 }

/-- The **effects of a token** on an assembler. -/
inductive Step (a : Assembler) (t : Token) : Expectation → Progress → Assembler → Prop
  | illegal {e : Expectation} (kind : t.kind = .illegal) :
      Step a t e (a.faultAt (.illegalCharacter t.literal) t.offset 1) a
  | negation {e : Expectation} (due : e.TakesOperand t) (kind : t.kind.sign? = some true) :
      Step a t e (.continue .operand) { a with pending := .negation t.offset :: a.pending }
  | plus {e : Expectation} (due : e.TakesOperand t) (kind : t.kind.sign? = some false) :
      Step a t e (.continue .operand) a
  | number {e : Expectation} (due : e.TakesOperand t) (kind : t.kind = .number) :
      Step a t e (.continue .operator)
        (a.emit (.number (Binary64.ofNumeral t.literal.toList) ⟨t.offset, t.literal.length⟩))
  | constant {e : Expectation} {value : Binary64} (due : e.TakesOperand t)
      (kind : t.kind = .variable) (known : constant? t.literal = some value) :
      Step a t e (.continue .operator) (a.emit (.number value ⟨t.offset, t.literal.length⟩))
  | unknownVariable {e : Expectation} (due : e.TakesOperand t) (kind : t.kind = .variable)
      (unknown : constant? t.literal = none) :
      Step a t e (a.faultAt (.unknownVariable t.literal (function? t.literal).isSome) t.offset
        t.literal.length) a
  | name {e : Expectation} {f : Function} (due : e.TakesOperand t) (kind : t.kind = .function)
      (known : function? t.literal = some f) : Step a t e (.continue (.bracket f t.offset)) a
  | unknownFunction {e : Expectation} (due : e.TakesOperand t) (kind : t.kind = .function)
      (unknown : function? t.literal = none) :
      Step a t e (a.faultAt (.unknownFunction t.literal) t.offset t.literal.length) a
  | tooDeep {e : Expectation} (kind : t.kind = .openParen)
      (deep : a.maxDepth < ((a.depth + 1 : Nat) : Int)) (place : e ≠ .operator) :
      Step a t e (a.faultAt (.nestingTooDeep a.maxDepth) t.offset 1) { a with depth := a.depth + 1 }
  | group {e : Expectation} (due : e.TakesOperand t) (kind : t.kind = .openParen)
      (fits : ((a.depth + 1 : Nat) : Int) ≤ a.maxDepth) :
      Step a t e (.continue (.firstOperand none t.offset))
        { a with depth := a.depth + 1, pending := .paren t.offset :: a.pending }
  | call {f : Function} {name : Nat} (kind : t.kind = .openParen)
      (fits : ((a.depth + 1 : Nat) : Int) ≤ a.maxDepth) :
      Step a t (.bracket f name) (.continue (.firstOperand (some f) t.offset))
        { a with
          depth := a.depth + 1
          pending := .paren t.offset :: .call f name :: a.pending
          counts := 1 :: a.counts }
  | endsBeforeOperand {e : Expectation} (due : e.TakesOperand t) (kind : t.kind = .finish) :
      Step a t e (a.faultAt .endsBeforeOperand t.offset 1) a
  | notAnOperand {e : Expectation} (due : e.TakesOperand t) (sign : t.kind.sign? = none)
      (kind : t.kind ∉ [.number, .variable, .function, .openParen, .finish, .illegal]) :
      Step a t e (a.faultAt (.notAnOperand t.literal) t.offset t.literal.length) a
  | emptyParens {f : Option Function} {offset : Nat} (kind : t.kind = .closeParen) :
      Step a t (.firstOperand f offset)
        (a.faultAt (.emptyParens (f.map Function.name)) offset (t.stop - offset)) a
  | operator {op : Operator} (kind : t.kind.operator? = some op) :
      Step a t .operator (.continue .operand) (a.suspend op t.offset)
  | factorial (kind : t.kind = .factorial) :
      Step a t .operator (.continue .operator) (a.emit (.factorial t.offset))
  | comma {o name : Nat} {f : Function} {below : List Pending} (kind : t.kind = .comma)
      (top : a.releaseToParen.pending = .paren o :: .call f name :: below) :
      Step a t .operator (.continue .operand)
        { a.releaseToParen with counts := a.counts.modifyHead (· + 1) }
  | misplacedComma (kind : t.kind = .comma)
      (top : ∀ o name f below, a.releaseToParen.pending ≠ .paren o :: .call f name :: below) :
      Step a t .operator (a.faultAt .misplacedComma t.offset 1) a.releaseToParen
  | closeCall {o name : Nat} {f : Function} {below : List Pending} (kind : t.kind = .closeParen)
      (top : a.releaseToParen.pending = .paren o :: .call f name :: below)
      (arity : ∀ n, f.arity? = some n → a.counts.headD 1 = n) :
      Step a t .operator (.continue .operator)
        ((a.afterCall below).emit
          (.call f (a.counts.headD 1) ⟨name, ((t.stop - name : Nat) : Int)⟩))
  | arityMismatch {o name expected : Nat} {f : Function} {below : List Pending}
      (kind : t.kind = .closeParen)
      (top : a.releaseToParen.pending = .paren o :: .call f name :: below)
      (arity : f.arity? = some expected) (differs : a.counts.headD 1 ≠ expected) :
      Step a t .operator
        (a.faultAt (.arityMismatch f.name expected (a.counts.headD 1)) name (t.stop - name))
        (a.afterCall below)
  | closeGroup {o : Nat} {below : List Pending} (kind : t.kind = .closeParen)
      (top : a.releaseToParen.pending = .paren o :: below)
      (plain : ∀ f name rest, below ≠ .call f name :: rest) :
      Step a t .operator (.continue .operator)
        { a.releaseToParen with pending := below, depth := a.depth - 1 }
  | unmatchedClose (kind : t.kind = .closeParen)
      (top : ∀ o below, a.releaseToParen.pending ≠ .paren o :: below) :
      Step a t .operator (a.faultAt .unmatchedClose t.offset 1) a.releaseToParen
  | complete (kind : t.kind = .finish) (closed : ∀ p ∈ a.pending, p.isParen = false) :
      Step a t .operator .complete a.releaseToParen
  | unclosed {o : Nat} (kind : t.kind = .finish)
      (first : a.pending.reverse.find? Pending.isParen = some (.paren o)) :
      Step a t .operator (a.faultAt .unclosedParen o 1) a
  | missingOperator (sign : t.kind.operator? = none)
      (kind : t.kind ∉ [.factorial, .comma, .closeParen, .finish, .illegal]) :
      Step a t .operator (a.faultAt (.missingOperator t.literal) t.offset t.literal.length) a

/-- No token changes the text of an assembler, and every fault is one in that text. -/
theorem Step.source_eq {a a' : Assembler} {t : Token} {e : Expectation} {progress : Progress}
    (h : Step a t e progress a') :
    a'.source = a.source ∧ ∀ f, progress = .fault f → f.source = a.source := by
  cases h <;> refine ⟨rfl, fun f hf => ?_⟩ <;> cases hf <;> rfl

/-! ### Every token has one of these effects -/

variable (a : Assembler) (t : Token)

/-- An opening bracket is a step. -/
theorem step_openParen_none {e : Expectation} (due : e.TakesOperand t) (kind : t.kind = .openParen) :
    Step a t e (a.openParen none t.offset).1 (a.openParen none t.offset).2 := by
  rw [openParen]
  split
  · next deep =>
    refine .tooDeep kind deep ?_
    rintro rfl
    exact due
  · next fits => exact .group due kind (Int.not_lt.mp fits)

/-- So is the opening bracket of a call. -/
theorem step_openParen_some {f : Function} {name : Nat} (kind : t.kind = .openParen) :
    Step a t (.bracket f name) (a.openParen (some (f, name)) t.offset).1
      (a.openParen (some (f, name)) t.offset).2 := by
  rw [openParen]
  split
  · next deep => exact .tooDeep kind deep (by simp)
  · next fits => exact .call kind (Int.not_lt.mp fits)

/-- Every token is, where an operand is due. -/
theorem step_acceptOperand {e : Expectation} (due : e.TakesOperand t) (legal : t.kind ≠ .illegal) :
    Step a t e (a.acceptOperand t).1 (a.acceptOperand t).2 := by
  rw [acceptOperand]
  split
  · next negates hsign =>
    cases negates with
    | false => exact .plus due hsign
    | true => exact .negation due hsign
  · next hsign =>
    split
    · next hk => exact .number due hk
    · next hk =>
      split
      · next value hvalue => exact .constant due hk hvalue
      · next hnone => exact .unknownVariable due hk hnone
    · next hk =>
      split
      · next f hf => exact .name due hk hf
      · next hnone => exact .unknownFunction due hk hnone
    · next hk => exact step_openParen_none a t due hk
    · next hk => exact .endsBeforeOperand due hk
    · -- every kind that begins an operand has been tried
      refine .notAnOperand due hsign ?_
      simp_all

/-- A comma is a step. -/
theorem step_acceptComma (kind : t.kind = .comma) :
    Step a t .operator (a.acceptComma t.offset).1 (a.acceptComma t.offset).2 := by
  simp only [acceptComma]
  split
  · next o f name below top => exact .comma kind top
  · next top => exact .misplacedComma kind fun o name f below h => top o f name below h

/-- So is a closing bracket. -/
theorem step_acceptClose (kind : t.kind = .closeParen) :
    Step a t .operator (a.acceptClose t).1 (a.acceptClose t).2 := by
  simp only [acceptClose]
  split
  · next o f name below top =>
    -- the bracket of a call
    simp only [closeCall]
    split
    · next harity =>
      refine .closeCall kind top ?_
      intro n hn
      rw [harity] at hn
      cases hn
    · next expected harity =>
      split
      · next heq =>
        refine .closeCall kind top ?_
        intro n hn
        rw [harity] at hn
        cases hn
        exact heq
      · next hne => exact .arityMismatch kind top harity hne
  · next o below hplain top =>
    exact .closeGroup kind top fun f name rest h => hplain f name rest h
  · next hgroup hcall => exact .unmatchedClose kind fun o below h => hcall o below h

/-- And the end. -/
theorem step_acceptFinish (kind : t.kind = .finish) :
    Step a t .operator a.acceptFinish.1 a.acceptFinish.2 := by
  rw [acceptFinish]
  split
  · next o first => exact .unclosed kind first
  · next hnone =>
    refine .complete kind ?_
    intro p hp
    -- a bracket would have been found
    cases h : a.pending.reverse.find? Pending.isParen with
    | none =>
      have hfalse := List.find?_eq_none.mp h p (List.mem_reverse.mpr hp)
      exact Bool.eq_false_iff.mpr hfalse
    | some q =>
      have hq := List.find?_some h
      cases q with
      | paren o => exact absurd h (hnone o)
      | _ => cases hq

/-- **Every token has one of the effects** of `Step`. -/
theorem step_accept (e : Expectation) : Step a t e (a.accept e t).1 (a.accept e t).2 := by
  unfold accept
  split
  · next kind => exact .illegal kind
  · next legal =>
    cases e with
    | operand => exact step_acceptOperand a t trivial legal
    | operator =>
      show Step a t .operator (a.acceptOperator t).1 (a.acceptOperator t).2
      rw [acceptOperator]
      split
      · next op hop => exact .operator hop
      · next hop =>
        split
        · next hk => exact .factorial hk
        · next hk => exact step_acceptComma a t hk
        · next hk => exact step_acceptClose a t hk
        · next hk => exact step_acceptFinish a t hk
        · refine .missingOperator hop ?_
          simp_all
    | bracket f name =>
      dsimp only
      split
      · next hk => exact step_openParen_some a t hk
      · next hk => exact step_acceptOperand a t hk legal
    | firstOperand f offset =>
      dsimp only
      split
      · next hk => exact .emptyParens hk
      · next hk => exact step_acceptOperand a t hk legal

/-- What a token leads to is one of the effects. -/
theorem step_of_accept {a a' : Assembler} {t : Token} {e : Expectation} {progress : Progress}
    (accepted : a.accept e t = (progress, a')) : Step a t e progress a' := by
  have hstep := step_accept a t e
  rwa [accepted] at hstep

end Assembler

end Reckoner
