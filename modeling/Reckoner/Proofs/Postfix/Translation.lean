import Reckoner.Proofs.Expression.Precedence
import Reckoner.Proofs.Postfix.Arrangement
import Reckoner.Proofs.Postfix.Feed

/-! # Trees come out as their postorder

Feeding the tokens of a tree emits the postorder of the tree. Operators that still wait when the last
token has been read count as emitted: they come out before anything below them does.

* **`Stratum.Emits`** — what reading a phrase does to every assembler whose stack admits it.
* **`Reads.emits`** — the tokens of a tree emit its postorder.
* **`Reads.feed_complete`** — with the end token after them, they complete the program. -/

namespace Reckoner

/-! ## The tokens of an expression, one by one -/

namespace Assembler

variable {a : Assembler} {t : Token}

/-- A number is emitted. -/
@[simp] theorem accept_number (kind : t.kind = .number) :
    a.accept .operand t =
      (.continue .operator, a.emit (.number (Binary64.ofNumeral t.literal.toList) t.span)) := by
  simp [accept, acceptOperand, TokenKind.sign?, Token.span, kind]

/-- A constant is emitted as its value. -/
@[simp] theorem accept_constant {value : Binary64} (kind : t.kind = .variable)
    (known : constant? t.literal = some value) :
    a.accept .operand t = (.continue .operator, a.emit (.number value t.span)) := by
  simp [accept, acceptOperand, TokenKind.sign?, Token.span, kind, known]

/-- A sign waits if it negates. -/
@[simp] theorem accept_sign {negates : Bool} (kind : t.kind.sign? = some negates) :
    a.accept .operand t = (.continue .operand,
      if negates then { a with pending := .negation t.offset :: a.pending } else a) := by
  have legal : t.kind ≠ .illegal := by
    intro h
    rw [h] at kind
    cases kind
  simp [accept, acceptOperand, kind, legal]

/-- A name waits for its bracket. -/
@[simp] theorem accept_name {f : Function} (kind : t.kind = .function)
    (known : function? t.literal = some f) :
    a.accept .operand t = (.continue (.bracket f t.offset), a) := by
  simp [accept, acceptOperand, TokenKind.sign?, kind, known]

/-- A bracket within the limit is opened. -/
@[simp] theorem accept_group (kind : t.kind = .openParen)
    (fits : ((a.depth + 1 : Nat) : Int) ≤ a.maxDepth) :
    a.accept .operand t = (.continue (.firstOperand none t.offset),
      { a with depth := a.depth + 1, pending := .paren t.offset :: a.pending }) := by
  simp [accept, acceptOperand, TokenKind.sign?, openParen, kind]
  omega

/-- And so is the bracket of a call, with a count of its arguments. -/
@[simp] theorem accept_call {f : Function} {name : Nat} (kind : t.kind = .openParen)
    (fits : ((a.depth + 1 : Nat) : Int) ≤ a.maxDepth) :
    a.accept (.bracket f name) t = (.continue (.firstOperand (some f) t.offset),
      { a with
        depth := a.depth + 1
        pending := .paren t.offset :: .call f name :: a.pending
        counts := 1 :: a.counts }) := by
  simp [accept, openParen, kind]
  omega

/-- After an opening bracket every token but a closing one is read as usual. -/
@[simp] theorem accept_firstOperand {f : Option Function} {offset : Nat} (h : t.kind ≠ .closeParen) :
    a.accept (.firstOperand f offset) t = a.accept .operand t := by
  simp [accept, h]

/-- An operator waits for its right operand. -/
@[simp] theorem accept_operator {op : Operator} (kind : t.kind.operator? = some op) :
    a.accept .operator t = (.continue .operand, a.suspend op t.offset) := by
  have legal : t.kind ≠ .illegal := by
    intro h
    rw [h] at kind
    cases kind
  simp [accept, acceptOperator, kind, legal]

/-- A factorial is emitted at once. -/
@[simp] theorem accept_factorial (kind : t.kind = .factorial) :
    a.accept .operator t = (.continue .operator, a.emit (.factorial t.offset)) := by
  have hop : TokenKind.factorial.operator? = none := rfl
  simp [accept, acceptOperator, kind, hop]

/-- A comma in a call begins another argument. -/
theorem accept_comma {o name : Nat} {f : Function} {below : List Pending} (kind : t.kind = .comma)
    (top : a.releaseToParen.pending = .paren o :: .call f name :: below) :
    a.accept .operator t = (.continue .operand,
      { a.releaseToParen with counts := a.releaseToParen.counts.modifyHead (· + 1) }) := by
  have hop : TokenKind.comma.operator? = none := rfl
  simp [accept, acceptOperator, acceptComma, kind, hop, top]

/-- The closing bracket of a call emits it. -/
theorem accept_closeCall {o name : Nat} {f : Function} {below : List Pending}
    (kind : t.kind = .closeParen)
    (top : a.releaseToParen.pending = .paren o :: .call f name :: below)
    (arity : ∀ n, f.arity? = some n → a.counts.headD 1 = n) :
    a.accept .operator t = (.continue .operator, (a.afterCall below).emit
      (.call f (a.counts.headD 1) ⟨name, ((t.stop - name : Nat) : Int)⟩)) := by
  have hop : TokenKind.closeParen.operator? = none := rfl
  have hcounts : a.releaseToParen.counts = a.counts := rfl
  simp only [accept, acceptOperator, acceptClose, kind, hop, top, reduceCtorEq, if_false, closeCall,
    hcounts]
  cases harity : f.arity? with
  | none => rfl
  | some n =>
    dsimp only
    rw [if_pos (arity n harity)]
    rfl

/-- Any other closing bracket emits nothing. -/
theorem accept_closeGroup {o : Nat} {below : List Pending} (kind : t.kind = .closeParen)
    (top : a.releaseToParen.pending = .paren o :: below)
    (plain : ∀ f name rest, below ≠ .call f name :: rest) :
    a.accept .operator t = (.continue .operator,
      { a.releaseToParen with pending := below, depth := a.depth - 1 }) := by
  have hop : TokenKind.closeParen.operator? = none := rfl
  simp only [accept, acceptOperator, acceptClose, kind, hop, top, reduceCtorEq, if_false]
  rfl

/-- The end token completes a program when no bracket is open. -/
theorem accept_finish_of_closed (kind : t.kind = .finish)
    (closed : ∀ p ∈ a.pending, p.isParen = false) :
    a.accept .operator t = (.complete, a.releaseToParen) := by
  have hop : TokenKind.finish.operator? = none := rfl
  have hnone : a.pending.reverse.find? Pending.isParen = none := by
    rw [List.find?_eq_none]
    intro p hp
    rw [closed p (List.mem_reverse.mp hp)]
    exact Bool.false_ne_true
  simp only [accept, acceptOperator, acceptFinish, kind, hop, hnone, reduceCtorEq, if_false]

end Assembler

/-! ## What reading a phrase does -/

/-- The phrase comes out at once: nothing of it waits when its last token has been read. -/
def EmitsAtOnce (ts : List Token) (trees : List Tree) : Prop :=
  ∀ a : Assembler, Admits 4 a.pending → NestsWithin (a.maxDepth - a.depth) ts →
    a.feed .operand ts = (.continue .operator,
      { a with emitted := (Tree.postorders trees).reverse ++ a.emitted })

/-- Some operators of the phrase may wait, each of which comes out for an operator of level `n`; with
them the phrase is complete. -/
def EmitsAbove (n : Nat) (ts : List Token) (trees : List Tree) : Prop :=
  ∀ a : Assembler, Admits n a.pending → NestsWithin (a.maxDepth - a.depth) ts →
    ∃ qs out, (∀ q ∈ qs, q.ComesOut (Pending.bindsLeftOf n)) ∧
      drain qs out = (Tree.postorders trees).reverse ++ a.emitted ∧
      a.feed .operand ts = (.continue .operator,
        { a with pending := qs ++ a.pending, emitted := out })

/-- Inside the brackets of a call the arguments come out and are counted. -/
def EmitsArguments (ts : List Token) (trees : List Tree) : Prop :=
  ∀ (a : Assembler) (o name : Nat) (f : Function) (below : List Pending) (counts : List Nat),
    a.pending = .paren o :: .call f name :: below → a.counts = 1 :: counts →
    NestsWithin (a.maxDepth - a.depth) ts →
      ∃ qs out, (∀ q ∈ qs, q.ComesOut fun _ => true) ∧
        drain qs out = (Tree.postorders trees).reverse ++ a.emitted ∧
        a.feed .operand ts = (.continue .operator,
          { a with
            pending := qs ++ a.pending
            emitted := out
            counts := trees.length :: counts })

/-- What is emitted at once is emitted above every operator. -/
theorem EmitsAtOnce.emitsAbove {ts : List Token} {trees : List Tree} (h : EmitsAtOnce ts trees) :
    EmitsAbove 4 ts trees := by
  intro a hadmits hnest
  exact ⟨[], _, by simp, rfl, h a hadmits hnest⟩

/-- What is emitted above looser operators is emitted above tighter ones. -/
theorem EmitsAbove.lower {n : Nat} {ts : List Token} {trees : List Tree}
    (h : EmitsAbove (n + 1) ts trees) : EmitsAbove n ts trees := by
  intro a hadmits hnest
  obtain ⟨qs, out, hqs, hdrain, hfeed⟩ := h a (hadmits.of_le (Nat.le_succ n)) hnest
  exact ⟨qs, out, fun q hq => (hqs q hq).of_le (Nat.le_succ n), hdrain, hfeed⟩

/-- An expression is one argument. -/
theorem EmitsAbove.emitsArguments {ts : List Token} {tree : Tree} (h : EmitsAbove 0 ts [tree]) :
    EmitsArguments ts [tree] := by
  intro a o name f below counts hpending hcounts hnest
  have hadmits : Admits 0 a.pending := by
    rw [hpending]
    trivial
  obtain ⟨qs, out, hqs, hdrain, hfeed⟩ := h a hadmits hnest
  refine ⟨qs, out, fun q hq => (hqs q hq).of_all, hdrain, ?_⟩
  rw [hfeed, List.length_singleton, ← hcounts]

/-- A factorial mark emits at once. -/
theorem EmitsAtOnce.factorial {ts : List Token} {mark : Token} {tree : Tree}
    (h : EmitsAtOnce ts [tree]) (kind : mark.kind = .factorial) :
    EmitsAtOnce (ts ++ [mark]) [.factorial mark.offset tree] := by
  intro a hadmits hnest
  rw [nestsWithin_append] at hnest
  rw [Assembler.feed_append (h a hadmits hnest.1),
    Assembler.feed_cons (Assembler.accept_factorial kind), Assembler.feed_nil, Assembler.emit,
    Tree.postorders_singleton, Tree.postorders_singleton, Tree.postorder, List.reverse_append]
  rfl

/-- A sign that negates waits for its operand. -/
theorem EmitsAbove.negation {s : Token} {ts : List Token} {tree : Tree}
    (kind : s.kind.sign? = some true) (h : EmitsAbove 4 ts [tree]) :
    EmitsAbove 4 (s :: ts) [.negate s.offset tree] := by
  intro a hadmits hnest
  rw [nestsWithin_cons, openBrackets_of_sign kind, Int.sub_zero] at hnest
  have hacc := Assembler.accept_sign (a := a) kind
  rw [if_pos rfl] at hacc
  -- the sign waits below everything of its operand
  obtain ⟨qs, out, hqs, hdrain, hfeed⟩ :=
    h { a with pending := .negation s.offset :: a.pending } (Nat.le_refl 4) hnest.2
  refine ⟨qs ++ [.negation s.offset], out, ?_, ?_, ?_⟩
  · intro q hq
    rcases List.mem_append.mp hq with hq | hq
    · exact hqs q hq
    · rw [List.mem_singleton.mp hq]
      exact Pending.comesOut_negation rfl
  · rw [drain_append, hdrain, drain_cons rfl, drain_nil, Tree.postorders_singleton,
      Tree.postorders_singleton, Tree.postorder, List.reverse_append]
    rfl
  · rw [Assembler.feed_cons hacc, hfeed, List.append_assoc, List.singleton_append]

/-- A plus sign is passed over. -/
theorem EmitsAbove.plus {s : Token} {ts : List Token} {tree : Tree}
    (kind : s.kind.sign? = some false) (h : EmitsAbove 4 ts [tree]) :
    EmitsAbove 4 (s :: ts) [tree] := by
  intro a hadmits hnest
  rw [nestsWithin_cons, openBrackets_of_sign kind, Int.sub_zero] at hnest
  have hacc := Assembler.accept_sign (a := a) kind
  rw [if_neg Bool.false_ne_true] at hacc
  obtain ⟨qs, out, hqs, hdrain, hfeed⟩ := h a hadmits hnest.2
  exact ⟨qs, out, hqs, hdrain, by rw [Assembler.feed_cons hacc, hfeed]⟩

/-- The left operand comes out when its operator is read, and the operator waits for the right
one. -/
theorem EmitsAbove.operation {ls rs : List Token} {t : Token} {op : Operator} {l r : Tree}
    (left : EmitsAbove op.precedence ls [l]) (kind : t.kind.operator? = some op)
    (balanced : openBrackets ls = 0) (right : EmitsAbove (op.precedence + 1) rs [r]) :
    EmitsAbove op.precedence (ls ++ t :: rs) [.operation op t.offset l r] := by
  intro a hadmits hnest
  rw [nestsWithin_append, nestsWithin_cons, balanced, openBrackets_of_operator kind, Int.sub_zero,
    Int.sub_zero] at hnest
  obtain ⟨qs, out, hqs, hdrain, hfeed⟩ := left a hadmits hnest.1
  -- the operator brings out all of its left operand and nothing below it
  have hsuspend : Assembler.suspend { a with pending := qs ++ a.pending, emitted := out } op
      t.offset = { a with
        pending := .operation op t.offset :: a.pending
        emitted := (Tree.postorders [l]).reverse ++ a.emitted } := by
    rw [Assembler.suspend, release_append hqs,
      release_of_head (hadmits.stays op.precedence_le), hdrain]
  have hacc := Assembler.accept_operator (a := { a with pending := qs ++ a.pending, emitted := out })
    kind
  rw [hsuspend] at hacc
  -- the right operand is read above the operator, which is the last thing to come out
  obtain ⟨qs', out', hqs', hdrain', hfeed'⟩ :=
    right { a with
      pending := .operation op t.offset :: a.pending
      emitted := (Tree.postorders [l]).reverse ++ a.emitted } (Nat.lt_succ_self _) hnest.2.2
  refine ⟨qs' ++ [.operation op t.offset], out', ?_, ?_, ?_⟩
  · intro q hq
    rcases List.mem_append.mp hq with hq | hq
    · exact (hqs' q hq).of_le (Nat.le_succ _)
    · rw [List.mem_singleton.mp hq]
      exact Pending.comesOut_operation (by simp [Pending.bindsLeftOf])
  · rw [drain_append, hdrain', drain_cons rfl, drain_nil]
    simp only [Tree.postorders_singleton, Tree.postorder, List.reverse_append, List.append_assoc]
    rfl
  · rw [Assembler.feed_append hfeed, Assembler.feed_cons hacc, hfeed', List.append_assoc,
      List.singleton_append]

/-- A comma ends the arguments before it: what waits of them comes out, and one more is counted. -/
theorem EmitsArguments.comma {ls rs : List Token} {t : Token} {trees : List Tree} {tree : Tree}
    (left : EmitsArguments ls trees) (kind : t.kind = .comma) (balanced : openBrackets ls = 0)
    (right : EmitsAbove 0 rs [tree]) : EmitsArguments (ls ++ t :: rs) (trees ++ [tree]) := by
  intro a o name f below counts hpending hcounts hnest
  rw [nestsWithin_append, nestsWithin_cons, balanced,
    openBrackets_of_kind kind (by decide) (by decide), Int.sub_zero, Int.sub_zero] at hnest
  obtain ⟨qs, out, hqs, hdrain, hfeed⟩ := left a o name f below counts hpending hcounts hnest.1
  have hrelease := Assembler.releaseToParen_of_paren
    (a := { a with
      pending := qs ++ a.pending
      emitted := out
      counts := trees.length :: counts }) hqs (by rw [hpending])
  rw [← hpending, hdrain] at hrelease
  have hacc := Assembler.accept_comma (a := { a with
    pending := qs ++ a.pending
    emitted := out
    counts := trees.length :: counts }) kind (by rw [hrelease, hpending])
  rw [hrelease] at hacc
  -- after the comma the bracket is on top again, so any expression may follow
  obtain ⟨qs', out', hqs', hdrain', hfeed'⟩ :=
    right { a with
      emitted := (Tree.postorders trees).reverse ++ a.emitted
      counts := (trees.length + 1) :: counts } (by rw [hpending]; trivial) hnest.2.2
  refine ⟨qs', out', fun q hq => (hqs' q hq).of_all, ?_, ?_⟩
  · rw [hdrain', Tree.postorders_append, List.reverse_append, List.append_assoc]
  · rw [Assembler.feed_append hfeed, Assembler.feed_cons hacc, List.length_append,
      List.length_singleton]
    exact hfeed'

/-- After an opening bracket the tokens of a phrase are read as usual. -/
@[simp] theorem Assembler.feed_firstOperand {s : Stratum} {ts : List Token} {trees : List Tree}
    (h : Reads s ts trees) (a : Assembler) (f : Option Function) (offset : Nat) :
    a.feed (.firstOperand f offset) ts = a.feed .operand ts := by
  obtain ⟨t, us, rfl, ht⟩ := h.head
  rw [feed, feed, accept_firstOperand ht]

/-- Between brackets an expression nests one level deeper. -/
theorem fits_of_nestsWithin {maxDepth : Int} {depth : Nat} {opening closing : Token}
    {ts : List Token} (opens : opening.kind = .openParen)
    (h : NestsWithin (maxDepth - depth) (opening :: (ts ++ [closing]))) :
    ((depth + 1 : Nat) : Int) ≤ maxDepth ∧ NestsWithin (maxDepth - ((depth + 1 : Nat) : Int)) ts := by
  rw [nestsWithin_cons, openBrackets_of_open opens, nestsWithin_append] at h
  have hlimit : maxDepth - (depth : Int) - 1 = maxDepth - ((depth + 1 : Nat) : Int) := by omega
  rw [hlimit] at h
  have hfirst := h.1 opens
  exact ⟨by omega, h.2.1⟩

/-- What is in brackets is emitted when they close. -/
theorem EmitsAbove.group {opening closing : Token} {ts : List Token} {tree : Tree}
    (opens : opening.kind = .openParen) (reads : Reads (.level 0) ts [tree])
    (inner : EmitsAbove 0 ts [tree]) (closes : closing.kind = .closeParen) :
    EmitsAtOnce (opening :: (ts ++ [closing])) [tree] := by
  intro a hadmits hnest
  obtain ⟨fits, hinner⟩ := fits_of_nestsWithin opens hnest
  obtain ⟨qs, out, hqs, hdrain, hfeed⟩ :=
    inner { a with
      depth := a.depth + 1
      pending := .paren opening.offset :: a.pending } trivial hinner
  have hrelease := Assembler.releaseToParen_of_paren
    (a := { a with
      depth := a.depth + 1
      pending := qs ++ .paren opening.offset :: a.pending
      emitted := out }) (fun q hq => (hqs q hq).of_all) rfl
  -- an operand is never read right above a call, so the bracket is none of a call
  have hplain : ∀ f name rest, a.pending ≠ .call f name :: rest := by
    intro f name rest hp
    rw [hp] at hadmits
    exact hadmits
  have hacc := Assembler.accept_closeGroup (t := closing) closes (by rw [hrelease]) hplain
  rw [hrelease, hdrain] at hacc
  rw [Assembler.feed_cons (Assembler.accept_group opens fits),
    Assembler.feed_append ((Assembler.feed_firstOperand reads _ _ _).trans hfeed),
    Assembler.feed_cons hacc]
  rfl

/-- And a call is emitted after its arguments. -/
theorem EmitsArguments.call {name opening closing : Token} {f : Function} {ts : List Token}
    {trees : List Tree} (kind : name.kind = .function) (known : function? name.literal = some f)
    (opens : opening.kind = .openParen) (reads : Reads .arguments ts trees)
    (inner : EmitsArguments ts trees) (closes : closing.kind = .closeParen)
    (arity : ∀ n, f.arity? = some n → trees.length = n) :
    EmitsAtOnce (name :: opening :: (ts ++ [closing]))
      [.call f ⟨name.offset, ((closing.stop - name.offset : Nat) : Int)⟩ trees] := by
  intro a hadmits hnest
  rw [nestsWithin_cons, openBrackets_of_kind kind (by decide) (by decide), Int.sub_zero] at hnest
  obtain ⟨fits, hinner⟩ := fits_of_nestsWithin opens hnest.2
  obtain ⟨qs, out, hqs, hdrain, hfeed⟩ :=
    inner { a with
      depth := a.depth + 1
      pending := .paren opening.offset :: .call f name.offset :: a.pending
      counts := 1 :: a.counts } _ _ _ _ _ rfl rfl hinner
  have hrelease := Assembler.releaseToParen_of_paren
    (a := { a with
      depth := a.depth + 1
      pending := qs ++ .paren opening.offset :: .call f name.offset :: a.pending
      emitted := out
      counts := trees.length :: a.counts }) hqs rfl
  -- the counter holds the number of the trees, which is the arity
  have hacc := Assembler.accept_closeCall (t := closing) closes (by rw [hrelease]) arity
  rw [Assembler.afterCall, hrelease, hdrain] at hacc
  rw [Assembler.feed_cons (Assembler.accept_name kind known),
    Assembler.feed_cons (Assembler.accept_call opens fits),
    Assembler.feed_append ((Assembler.feed_firstOperand reads _ _ _).trans hfeed),
    Assembler.feed_cons hacc, Assembler.feed_nil, Tree.postorders_singleton, Tree.postorder,
    List.reverse_append]
  rfl

/-! ## Every tree comes out as its postorder -/

/-- What reading a phrase of a stratum does. -/
def Stratum.Emits (ts : List Token) (trees : List Tree) : Stratum → Prop
  | .primary => EmitsAtOnce ts trees
  | .factor => EmitsAtOnce ts trees
  | .operand => EmitsAbove 4 ts trees
  | .level n => EmitsAbove n ts trees
  | .arguments => EmitsArguments ts trees

/-- The brackets of what has a tree are balanced. -/
theorem Reads.openBrackets_eq_zero {s : Stratum} {ts : List Token} {trees : List Tree}
    (h : Reads s ts trees) : openBrackets ts = 0 :=
  h.derives.openBrackets_eq_zero

/-- **The tokens of a tree emit its postorder.** -/
theorem Reads.emits {s : Stratum} {ts : List Token} {trees : List Tree} (h : Reads s ts trees) :
    s.Emits ts trees := by
  induction h with
  | number kind =>
    intro a _ _
    rw [Assembler.feed_cons (Assembler.accept_number kind)]
    rfl
  | constant kind known =>
    intro a _ _
    rw [Assembler.feed_cons (Assembler.accept_constant kind known)]
    rfl
  | group opens inner closes ih => exact EmitsAbove.group opens inner ih closes
  | call kind known opens inner closes arity ih =>
    exact EmitsArguments.call kind known opens inner ih closes arity
  | primary _ ih => exact ih
  | factorial _ kind ih => exact EmitsAtOnce.factorial ih kind
  | factor _ ih => exact EmitsAtOnce.emitsAbove ih
  | negation kind _ ih => exact EmitsAbove.negation (TokenKind.sign?_eq_true_iff.mpr kind) ih
  | plus kind _ ih => exact EmitsAbove.plus (TokenKind.sign?_eq_false_iff.mpr kind) ih
  | operand _ ih => exact ih
  | lower _ ih => exact EmitsAbove.lower ih
  | operation left kind level right ihl ihr =>
    obtain rfl := Operator.mem_level_iff.mp level
    exact EmitsAbove.operation ihl kind left.openBrackets_eq_zero ihr
  | argument _ ih => exact EmitsAbove.emitsArguments ih
  | comma left kind right ihl ihr =>
    exact EmitsArguments.comma ihl kind left.openBrackets_eq_zero ihr

/-- **With the end token after them, the tokens of a tree complete the program** that is its
postorder. -/
theorem Reads.feed_complete {ts : List Token} {tree : Tree} (h : Reads (.level 0) ts [tree])
    {last : Token} (hlast : last.kind = .finish) (source : String) {maxDepth : Int}
    (hnest : NestsWithin maxDepth ts) :
    ∃ a, (Assembler.start source maxDepth).feed .operand (ts ++ [last]) = (.complete, a) ∧
      a.program = ⟨source, tree.postorder⟩ := by
  have hdepth : maxDepth - ((Assembler.start source maxDepth).depth : Int) = maxDepth :=
    Int.sub_zero maxDepth
  obtain ⟨qs, out, hqs, hdrain, hfeed⟩ :=
    h.emits (Assembler.start source maxDepth) trivial (hdepth.symm ▸ hnest)
  have hall : ∀ q ∈ qs ++ [], q.ComesOut fun _ => true := by
    intro q hq
    rw [List.append_nil] at hq
    exact (hqs q hq).of_all
  -- at the end only operators and signs wait
  have hclosed : ∀ q ∈ qs ++ [], q.isParen = false := by
    intro q hq
    cases q with
    | paren o => exact absurd rfl (hall _ hq).2
    | _ => rfl
  have hacc := Assembler.accept_finish_of_closed (a := { Assembler.start source maxDepth with
    pending := qs ++ []
    emitted := out }) hlast hclosed
  rw [Assembler.releaseToParen_of_forall hall] at hacc
  refine ⟨_, (Assembler.feed_append hfeed _).trans (Assembler.feed_cons_of_complete hacc []), ?_⟩
  show Program.mk source (drain (qs ++ []) out).reverse = _
  rw [List.append_nil, hdrain, Tree.postorders_singleton]
  show Program.mk source (tree.postorder.reverse ++ []).reverse = _
  rw [List.append_nil, List.reverse_reverse]

end Reckoner
