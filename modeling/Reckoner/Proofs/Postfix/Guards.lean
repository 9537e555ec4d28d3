import Reckoner.Proofs.Postfix.Arrangement

/-! # An assembler that checks every access

The handlers of an assembler take entries off its stacks without asking whether there are any, and
write out what they take off as if it were an instruction. Here every such step is checked: it has no
result when a stack is empty, when a bracket or a call would come out as an instruction, when a call
has counted no argument, or when the depth would fall below zero. For a coherent assembler no check
fails.

* **`Assembler.accept?`** — the effect of a token with every access checked.
* **`Assembler.Coherent.accept?_eq`** — a coherent assembler passes every check. -/

namespace Reckoner

/-- Takes entries off the stack and writes them out down to a bracket. The result says whether a
bracket was found. -/
def releaseToParen? : List Pending → List Instruction →
    Option (Bool × List Pending × List Instruction)
  | [], out => some (false, [], out)
  | .paren o :: rest, out => some (true, .paren o :: rest, out)
  | q :: rest, out => q.instruction?.bind fun i => releaseToParen? rest (i :: out)

/-- Takes entries off the stack and writes them out as long as an operator of the given precedence has
to wait for them. -/
def releaseLeftOf? (precedence : Nat) : List Pending → List Instruction →
    Option (List Pending × List Instruction)
  | [], out => some ([], out)
  | q :: rest, out =>
    if Pending.bindsLeftOf precedence q then
      q.instruction?.bind fun i => releaseLeftOf? precedence rest (i :: out)
    else some (q :: rest, out)

/-- Takes all entries off the stack and writes them out. -/
def releaseAll? : List Pending → List Instruction → Option (List Instruction)
  | [], out => some out
  | q :: rest, out => q.instruction?.bind fun i => releaseAll? rest (i :: out)

/-- What comes out is released before anything else is looked at. -/
theorem releaseToParen?_append {qs : List Pending} (hqs : ∀ q ∈ qs, q.ComesOut fun _ => true)
    (ps : List Pending) (out : List Instruction) :
    releaseToParen? (qs ++ ps) out = releaseToParen? ps (drain qs out) := by
  induction qs generalizing out with
  | nil => rfl
  | cons q qs ih =>
    -- what comes out becomes an instruction, so the check on it passes
    obtain ⟨i, hi⟩ := Option.ne_none_iff_exists'.mp (hqs q (List.mem_cons_self ..)).2
    have hrest := ih fun r hr => hqs r (List.mem_cons_of_mem q hr)
    rw [drain_cons hi, ← hrest, List.cons_append]
    cases q with
    | paren o => cases hi
    | call f o => cases hi
    | negation o =>
      cases hi
      rfl
    | operation op o =>
      cases hi
      rfl

/-- An operator never waits for a bracket or a call. -/
@[simp] theorem releaseLeftOf?_eq (precedence : Nat) (ps : List Pending) (out : List Instruction) :
    releaseLeftOf? precedence ps out = some (release (Pending.bindsLeftOf precedence) ps out) := by
  induction ps generalizing out with
  | nil => rfl
  | cons q ps ih =>
    cases q with
    | paren o => rfl
    | call f o => rfl
    | negation o => exact ih _
    | operation op o =>
      rw [releaseLeftOf?, release]
      split
      · exact ih _
      · rfl

/-- **Everything that comes out can be released**. -/
theorem releaseAll?_eq {qs : List Pending} (hqs : ∀ q ∈ qs, q.ComesOut fun _ => true)
    (out : List Instruction) : releaseAll? qs out = some (drain qs out) := by
  induction qs generalizing out with
  | nil => rfl
  | cons q qs ih =>
    obtain ⟨i, hi⟩ := Option.ne_none_iff_exists'.mp (hqs q (List.mem_cons_self ..)).2
    rw [releaseAll?, hi, Option.bind_some, ih fun r hr => hqs r (List.mem_cons_of_mem q hr),
      drain_cons hi]

namespace Assembler

/-- An operator, with every access checked. -/
def suspend? (a : Assembler) (op : Operator) (offset : Nat) : Option (Progress × Assembler) :=
  (releaseLeftOf? op.precedence a.pending a.emitted).map fun (pending, emitted) =>
    (.continue .operand, { a with pending := .operation op offset :: pending, emitted })

/-- A comma, with every access checked. -/
def acceptComma? (a : Assembler) (offset : Nat) : Option (Progress × Assembler) :=
  (releaseToParen? a.pending a.emitted).bind fun (found, pending, emitted) =>
    let a := { a with pending, emitted }
    match found, pending with
    | true, _ :: .call .. :: _ =>
      match a.counts with
      | [] => none
      | n :: counts => some (.continue .operand, { a with counts := (n + 1) :: counts })
    | _, _ => some (a.faultAt .misplacedComma offset 1, a)

/-- A closing bracket, with every access checked. -/
def acceptClose? (a : Assembler) (t : Token) : Option (Progress × Assembler) :=
  (releaseToParen? a.pending a.emitted).bind fun (found, pending, emitted) =>
    let a := { a with pending, emitted }
    if found then
      match pending with
      | [] => none
      | _ :: rest =>
        if a.depth = 0 then none
        else
          match rest with
          | .call f offset :: below =>
            match a.counts with
            | [] => none
            | received :: _ =>
              if f.arity? = none ∧ received < 1 then none
              else some (closeCall { a with pending := below, depth := a.depth - 1 } f offset t.stop)
          | _ => some (.continue .operator, { a with pending := rest, depth := a.depth - 1 })
    else some (a.faultAt .unmatchedClose t.offset 1, a)

/-- The end of the expression, with every access checked. -/
def acceptFinish? (a : Assembler) : Option (Progress × Assembler) :=
  match a.pending.reverse.find? Pending.isParen with
  | some (.paren offset) => some (a.faultAt .unclosedParen offset 1, a)
  | _ => (releaseAll? a.pending a.emitted).map fun emitted =>
    (.complete, { a with pending := [], emitted })

/-- The **effect of a token** with every access checked. Only an operator, a comma, a closing bracket
and the end of the expression take entries off the stack. -/
def accept? (a : Assembler) (e : Expectation) (t : Token) : Option (Progress × Assembler) :=
  match e, t.kind with
  | .operator, .comma => a.acceptComma? t.offset
  | .operator, .closeParen => a.acceptClose? t
  | .operator, .finish => a.acceptFinish?
  | .operator, kind =>
    match kind.operator? with
    | some op => a.suspend? op t.offset
    | none => some (a.accept .operator t)
  | e, _ => some (a.accept e t)

/-- An operator finds what it needs. -/
@[simp] theorem suspend?_eq (a : Assembler) (op : Operator) (offset : Nat) :
    a.suspend? op offset = some (.continue .operand, a.suspend op offset) := by
  rw [suspend?, releaseLeftOf?_eq]
  rfl

namespace Coherent

variable {a : Assembler} {k : Nat}

/-- Only negations and operators come out on the way to a bracket. -/
theorem releaseToParen?_eq (h : Coherent k a) :
    (a.releaseToParen.pending = [] ∧
      releaseToParen? a.pending a.emitted = some (false, [], a.releaseToParen.emitted)) ∨
    ∃ o below, a.releaseToParen.pending = .paren o :: below ∧
      releaseToParen? a.pending a.emitted =
        some (true, .paren o :: below, a.releaseToParen.emitted) := by
  obtain ⟨qs, rest, hsplit, hqs, hstays, hrelease⟩ :=
    exists_release (fun _ => true) a.pending a.emitted
  have hpending : a.releaseToParen.pending = rest := by rw [Assembler.releaseToParen, hrelease]
  have hemitted : a.releaseToParen.emitted = drain qs a.emitted := by
    rw [Assembler.releaseToParen, hrelease]
  have hrest : Arranged rest := (hsplit ▸ h.arranged).of_append hqs
  rw [hpending, hemitted, hsplit, releaseToParen?_append hqs]
  rcases hrest.eq_nil_or_paren hstays with rfl | ⟨o, below, rfl⟩
  · exact .inl ⟨rfl, rfl⟩
  · exact .inr ⟨o, below, rfl, rfl⟩

/-- So does a comma. -/
theorem acceptComma?_eq (h : Coherent k a) (offset : Nat) :
    a.acceptComma? offset = some (a.acceptComma offset) := by
  rcases h.releaseToParen?_eq with ⟨hpending, hrelease⟩ | ⟨o, below, hpending, hrelease⟩
  · simp only [acceptComma?, acceptComma, hrelease, hpending, Option.bind_some]
    rw [← hpending]
    rfl
  · simp only [acceptComma?, acceptComma, hrelease, hpending, Option.bind_some]
    cases below with
    | nil =>
      dsimp only
      rw [← hpending]
      rfl
    | cons p below =>
      cases p with
      | call f name =>
        -- the call has a counter, which the comma raises
        obtain ⟨n, counts, hcounts, -⟩ := h.releaseToParen.exists_count hpending
        rw [releaseToParen_counts] at hcounts
        simp only [hcounts, releaseToParen_counts, List.modifyHead_cons]
        rw [← hpending]
        rfl
      | _ =>
        dsimp only
        rw [← hpending]
        rfl

/-- And a closing bracket. -/
theorem acceptClose?_eq (h : Coherent k a) (t : Token) :
    a.acceptClose? t = some (a.acceptClose t) := by
  rcases h.releaseToParen?_eq with ⟨hpending, hrelease⟩ | ⟨o, below, hpending, hrelease⟩
  · simp only [acceptClose?, acceptClose, hrelease, hpending, Option.bind_some]
    rw [if_neg Bool.false_ne_true, ← hpending]
    rfl
  · have hdepth := h.releaseToParen.depth
    rw [hpending, countP_isParen_paren, releaseToParen_depth] at hdepth
    -- the bracket that closes is counted in the depth
    have hpositive : a.depth ≠ 0 := by omega
    simp only [acceptClose?, acceptClose, hrelease, hpending, Option.bind_some, if_true,
      if_neg hpositive]
    cases below with
    | nil => rfl
    | cons p below =>
      cases p with
      | call f name =>
        obtain ⟨n, counts, hcounts, hn⟩ := h.releaseToParen.exists_count hpending
        rw [releaseToParen_counts] at hcounts
        -- one argument at least has been counted
        have hsome : ¬ (f.arity? = none ∧ n < 1) := fun hf => Nat.not_lt.mpr hn hf.2
        simp only [hcounts, if_neg hsome]
        rw [← hcounts]
        rfl
      | _ => rfl

/-- And the end. -/
theorem acceptFinish?_eq (h : Coherent k a) : a.acceptFinish? = some a.acceptFinish := by
  rw [acceptFinish?, acceptFinish]
  cases hfind : a.pending.reverse.find? Pending.isParen with
  | some q =>
    have hq := List.find?_some hfind
    cases q with
    | paren o => rfl
    | _ => cases hq
  | none =>
    obtain ⟨qs, rest, hsplit, hqs, hstays, hrelease⟩ :=
      exists_release (fun _ => true) a.pending a.emitted
    have hrest : Arranged rest := (hsplit ▸ h.arranged).of_append hqs
    rcases hrest.eq_nil_or_paren hstays with rfl | ⟨o, below, rfl⟩
    · rw [List.append_nil] at hsplit
      dsimp only
      rw [Assembler.releaseToParen, hrelease, hsplit, releaseAll?_eq hqs]
      rfl
    · -- no bracket waits
      have hmem : Pending.paren o ∈ a.pending.reverse := by simp [hsplit]
      exact absurd rfl (List.find?_eq_none.mp hfind _ hmem)

/-- **A coherent assembler passes every check**, whatever it expects and whatever comes next. -/
theorem accept?_eq (h : Coherent k a) (e : Expectation) (t : Token) :
    a.accept? e t = some (a.accept e t) := by
  unfold accept?
  split
  · next kind =>
    have hop : TokenKind.comma.operator? = none := rfl
    rw [h.acceptComma?_eq]
    simp [Assembler.accept, acceptOperator, kind, hop]
  · next kind =>
    have hop : TokenKind.closeParen.operator? = none := rfl
    rw [h.acceptClose?_eq]
    simp [Assembler.accept, acceptOperator, kind, hop]
  · next kind =>
    have hop : TokenKind.finish.operator? = none := rfl
    rw [h.acceptFinish?_eq]
    simp [Assembler.accept, acceptOperator, kind, hop]
  · next hcomma hclose hfinish =>
    split
    · next op hop =>
      have legal : t.kind ≠ .illegal := by
        intro hk
        rw [hk] at hop
        cases hop
      rw [suspend?_eq]
      simp [Assembler.accept, acceptOperator, hop, legal]
    · rfl
  · rfl

end Coherent

end Assembler

end Reckoner
