import Reckoner.Proofs.Expression.Precedence

/-! # What is written at each token

An expression read from left to right, without its grammar: which of its tokens stand for an
instruction, and for which one.

* **`operandDue`** — whether an operand is due, which the token before decides.
* **`TokenKind.marked`, `TokenKind.bare`** — the tokens that stand for an instruction, and those that
  only separate.
* **`closing?`** — the bracket that closes a call, and how many arguments it ends.
* **`Token.instruction?`** — the instruction that a token stands for.
* **`Writes`** — the instructions of several tokens, in the order of the tokens.
* **`Reads.writes`** — the postorder of the tree of an expression has exactly these instructions, and
  the numbers in this order. -/

namespace Reckoner

/-! ## The roles of tokens -/

namespace TokenKind

/-- Whether a token **completes an operand**. -/
def endsOperand (kind : TokenKind) : Bool :=
  kind ∈ [.number, .variable, .factorial, .closeParen]

/-- Whether a token stands for an instruction: numbers, names and marks of the factorial do, signs that
negate where an operand is due, and operators where none is. -/
def marked (due : Bool) (kind : TokenKind) : Bool :=
  kind ∈ [.number, .variable, .function, .factorial] ||
    if due then kind ∈ negations else kind.operator?.isSome

/-- Whether a token stands for no instruction: brackets, commas and the end token do not, and neither
does the sign that changes nothing. -/
def bare (due : Bool) (kind : TokenKind) : Bool :=
  kind ∈ [.openParen, .closeParen, .comma, .finish] || due && kind = .plus

/-- No token is both. -/
theorem marked_eq_false_of_bare {due : Bool} {kind : TokenKind} (h : kind.bare due = true) :
    kind.marked due = false := by
  cases due <;> cases kind <;> first | rfl | cases h

/-- No operand ends with an operator. -/
@[simp] theorem endsOperand_of_operator {kind : TokenKind} {op : Operator} (h : kind.operator? = some op) :
    kind.endsOperand = false := by
  rw [← operator?_eq_some_iff.mp h]
  cases op <;> rfl

/-- Nor with a sign. -/
@[simp] theorem endsOperand_of_negation {kind : TokenKind} (h : kind ∈ negations) :
    kind.endsOperand = false := by
  cases kind <;> first | rfl | exact absurd h (by decide)

end TokenKind

/-- Whether an **operand is due** after some tokens: at the beginning, and after every token that does
not complete one. -/
def operandDue (before : List Token) : Bool := before.getLast?.all fun t => !t.kind.endsOperand

/-- An operand is due at the beginning. -/
@[simp] theorem operandDue_nil : operandDue [] = true := rfl

/-- And after every token that ends none. -/
@[simp] theorem operandDue_concat (before : List Token) (t : Token) :
    operandDue (before ++ [t]) = !t.kind.endsOperand := by
  rw [operandDue, List.getLast?_concat, Option.all_some]

/-! ## Closing brackets -/

/-- The bracket that **closes a call**, and how many arguments it has, when so many more brackets are
open and so many arguments have begun. -/
def closing? (depth count : Nat) : List Token → Option (Token × Nat)
  | [] => none
  | t :: ts =>
    match t.kind, depth with
    | .openParen, depth => closing? (depth + 1) count ts
    | .closeParen, 0 => some (t, count)
    | .closeParen, depth + 1 => closing? depth count ts
    | .comma, 0 => closing? 0 (count + 1) ts
    | _, depth => closing? depth count ts

section Closing

variable {t : Token} (depth count : Nat) (ts : List Token)

/-- An opening bracket lies deeper. -/
@[simp] theorem closing?_open (h : t.kind = .openParen) :
    closing? depth count (t :: ts) = closing? (depth + 1) count ts := by
  simp only [closing?, h]

/-- The closing bracket is found. -/
@[simp] theorem closing?_close (h : t.kind = .closeParen) :
    closing? 0 count (t :: ts) = some (t, count) := by
  simp only [closing?, h]

/-- A closing bracket from deeper inside leads back. -/
@[simp] theorem closing?_close_succ (h : t.kind = .closeParen) :
    closing? (depth + 1) count (t :: ts) = closing? depth count ts := by
  simp only [closing?, h]

/-- A comma counts where it is not deeper inside. -/
@[simp] theorem closing?_comma (h : t.kind = .comma) :
    closing? depth count (t :: ts) = closing? depth (count + if depth = 0 then 1 else 0) ts := by
  cases depth with
  | zero => simp only [closing?, h, if_pos]
  | succ depth => simp only [closing?, h, if_neg (Nat.succ_ne_zero depth), Nat.add_zero]

/-- Other tokens are passed over. -/
@[simp] theorem closing?_other (h : t.kind ∉ [.openParen, .closeParen, .comma]) :
    closing? depth count (t :: ts) = closing? depth count ts := by
  conv => lhs; unfold closing?
  split <;> simp_all

/-- A token closes the call or is passed. -/
theorem closing?_cons (t : Token) : depth = 0 ∧ t.kind = .closeParen ∨
    ∃ depth' count', ∀ us, closing? depth count (t :: us) = closing? depth' count' us := by
  by_cases hopen : t.kind = .openParen
  · exact .inr ⟨_, _, fun us => closing?_open _ _ us hopen⟩
  by_cases hclose : t.kind = .closeParen
  · cases depth with
    | zero => exact .inl ⟨rfl, hclose⟩
    | succ depth => exact .inr ⟨_, _, fun us => closing?_close_succ _ _ us hclose⟩
  by_cases hcomma : t.kind = .comma
  · exact .inr ⟨_, _, fun us => closing?_comma _ _ us hcomma⟩
  · exact .inr ⟨_, _, fun us => closing?_other _ _ us (by simp [hopen, hclose, hcomma])⟩

/-- A token that is no bracket and no comma does not matter. -/
theorem closing?_insert (h : t.kind ∉ [.openParen, .closeParen, .comma]) (us : List Token) :
    closing? depth count (us ++ t :: ts) = closing? depth count (us ++ ts) := by
  induction us generalizing depth count with
  | nil => exact closing?_other depth count ts h
  | cons u us ih =>
    rcases closing?_cons depth count u with ⟨rfl, closes⟩ | ⟨depth', count', hstep⟩
    · rw [List.cons_append, List.cons_append, closing?_close _ _ closes, closing?_close _ _ closes]
    · rw [List.cons_append, List.cons_append, hstep, hstep, ih]

/-- **The bracket that is found** is one of the tokens, and those after it do not matter. -/
theorem exists_of_closing? {depth count n : Nat} {ts : List Token} {closing : Token}
    (h : closing? depth count ts = some (closing, n)) :
    ∃ inside rest, ts = inside ++ closing :: rest ∧ closing.kind = .closeParen ∧
      ∀ rest', closing? depth count (inside ++ closing :: rest') = some (closing, n) := by
  induction ts generalizing depth count with
  | nil => cases h
  | cons t ts ih =>
    rcases closing?_cons depth count t with ⟨rfl, closes⟩ | ⟨depth', count', hstep⟩
    · rw [closing?_close _ _ closes] at h
      cases h
      exact ⟨[], ts, rfl, closes, fun rest' => closing?_close _ _ closes⟩
    · rw [hstep] at h
      obtain ⟨inside, rest, rfl, closes, hrest⟩ := ih h
      refine ⟨t :: inside, rest, rfl, closes, ?_⟩
      intro rest'
      rw [List.cons_append, hstep, hrest]

end Closing

/-- Tokens **hold `n` arguments**: between their brackets they are balanced, and a call that they stand
in is not closed by them. -/
def Holds (n : Nat) (ts : List Token) : Prop :=
  ∀ depth count rest, closing? depth (count + 1) (ts ++ rest) =
    closing? depth (count + if depth = 0 then n else 1) rest

namespace Holds

variable {ts us : List Token} {t opening closing : Token} {m n : Nat}

/-- A token without brackets and commas is one argument. -/
theorem single (h : t.kind ∉ [.openParen, .closeParen, .comma]) : Holds 1 [t] := by
  intro depth count rest
  rw [ite_self]
  exact closing?_other depth (count + 1) rest h

/-- Two parts of an argument are one argument. -/
theorem append (h : Holds 1 ts) (hu : Holds 1 us) : Holds 1 (ts ++ us) := by
  intro depth count rest
  rw [List.append_assoc, h, ite_self, hu, ite_self]

/-- What is in brackets counts as one argument. -/
theorem bracketed (opens : opening.kind = .openParen) (h : Holds n ts)
    (closes : closing.kind = .closeParen) : Holds 1 (opening :: (ts ++ [closing])) := by
  intro depth count rest
  -- inside the brackets no comma counts
  rw [List.cons_append, List.append_assoc, closing?_open _ _ _ opens, h, if_neg (Nat.succ_ne_zero _),
    List.singleton_append, closing?_close_succ _ _ _ closes, ite_self]

/-- A comma begins another argument. -/
theorem comma (h : Holds m ts) (kind : t.kind = .comma) (hu : Holds 1 us) :
    Holds (m + 1) (ts ++ t :: us) := by
  intro depth count rest
  rw [List.append_assoc, List.cons_append, h, closing?_comma _ _ _ kind]
  by_cases hdepth : depth = 0
  · rw [if_pos hdepth, if_pos hdepth, if_pos hdepth, hu, ite_self, Nat.add_assoc]
  · rw [if_neg hdepth, if_neg hdepth, if_neg hdepth, Nat.add_zero, hu, ite_self]

/-- The last token of an argument does not begin one. -/
theorem of_concat (h : Holds n (ts ++ [t])) (kind : t.kind ∉ [.openParen, .closeParen, .comma]) :
    Holds n ts := by
  intro depth count rest
  rw [← h, List.append_assoc, List.singleton_append, closing?_insert _ _ _ kind]

/-- **The closing bracket is found after the arguments**, and they are counted. -/
theorem closing?_eq (h : Holds n ts) (closes : closing.kind = .closeParen) (rest : List Token) :
    closing? 0 1 (ts ++ closing :: rest) = some (closing, n) := by
  rw [← Nat.zero_add 1, h, if_pos rfl, Nat.zero_add, closing?_close _ _ closes]

end Holds

/-- The tokens of a phrase hold as many arguments as it has trees. -/
theorem Reads.holds {s : Stratum} {ts : List Token} {trees : List Tree} (h : Reads s ts trees) :
    Holds trees.length ts := by
  induction h with
  | number kind => exact .single (by rw [kind]; decide)
  | constant kind known => exact .single (by rw [kind]; decide)
  | group opens inner closes ih => exact .bracketed opens ih closes
  | call kind known opens inner closes arity ih =>
    exact .append (.single (by rw [kind]; decide)) (.bracketed opens ih closes)
  | factorial inner kind ih => exact .append ih (.single (by rw [kind]; decide))
  | negation kind inner ih =>
    refine .append (.single ?_) ih
    intro hmem
    simp only [TokenKind.negations, List.mem_cons, List.not_mem_nil, or_false] at kind hmem
    grind
  | plus kind inner ih => exact .append (.single (by rw [kind]; decide)) ih
  | @operation n ls rs t op l r left kind level right ihl ihr =>
    have hop : t.kind ∉ [.openParen, .closeParen, .comma] := by
      rw [← TokenKind.operator?_eq_some_iff.mp kind]
      cases op <;> decide
    exact .append ihl (.append (.single hop) ihr)
  | comma left kind right ihl ihr =>
    rw [List.length_append]
    exact .comma ihl kind ihr
  | primary inner ih => exact ih
  | factor inner ih => exact ih
  | operand inner ih => exact ih
  | lower inner ih => exact ih
  | argument inner ih => exact ih

/-! ## The instructions of tokens -/

/-- The call that begins with a name, before a bracket and the tokens after it. Its length reaches to
the bracket that closes it. -/
def Token.call? (name : Token) : List Token → Option Instruction
  | [] => none
  | _ :: inside =>
    (function? name.literal).bind fun f =>
      (closing? 0 1 inside).map fun (closing, count) =>
        .call f count ⟨name.offset, ((closing.stop - name.offset : Nat) : Int)⟩

/-- The **instruction that a token stands for**, given whether an operand is due and the tokens after
it. -/
def Token.instruction? (due : Bool) (t : Token) (after : List Token) : Option Instruction :=
  match t.kind with
  | .number => some (.number (Binary64.ofNumeral t.literal.toList) t.span)
  | .variable => (constant? t.literal).map fun value => .number value t.span
  | .function => t.call? after
  | .factorial => some (.factorial t.offset)
  | kind =>
    if due then if kind ∈ TokenKind.negations then some (.negate t.offset) else none
    else kind.operator?.map fun op => .operation op t.offset

namespace Token

variable {t : Token} {due : Bool} {after : List Token} {i : Instruction}

/-- What is known when a name begins a call. -/
theorem exists_of_call?_eq_some (h : t.call? after = some i) :
    ∃ opening inside f closing count, after = opening :: inside ∧ function? t.literal = some f ∧
      closing? 0 1 inside = some (closing, count) ∧
      i = .call f count ⟨t.offset, ((closing.stop - t.offset : Nat) : Int)⟩ := by
  cases after with
  | nil => cases h
  | cons opening inside =>
    rw [call?] at h
    obtain ⟨f, hknown, hf⟩ := Option.bind_eq_some_iff.mp h
    obtain ⟨⟨closing, count⟩, hcloses, rfl⟩ := Option.map_eq_some_iff.mp hf
    exact ⟨opening, inside, f, closing, count, rfl, hknown, hcloses, rfl⟩

/-- A name and its brackets stand for a call. -/
theorem instruction?_call {opening closing : Token} {inside : List Token} {f : Function} {count : Nat}
    (kind : t.kind = .function) (known : function? t.literal = some f)
    (closes : closing? 0 1 inside = some (closing, count)) :
    t.instruction? due (opening :: inside) =
      some (.call f count ⟨t.offset, ((closing.stop - t.offset : Nat) : Int)⟩) := by
  rw [instruction?, kind, call?, known, Option.bind_some, closes, Option.map_some]

/-- A sign before an operand stands for a negation. -/
@[simp] theorem instruction?_negation (h : t.kind ∈ TokenKind.negations) :
    t.instruction? true after = some (.negate t.offset) := by
  rw [instruction?]
  split <;> simp_all [TokenKind.negations]

/-- An operator after one stands for its operation. -/
@[simp] theorem instruction?_operation {op : Operator} (h : t.kind.operator? = some op) :
    t.instruction? false after = some (.operation op t.offset) := by
  have hkind := TokenKind.operator?_eq_some_iff.mp h
  rw [instruction?, ← hkind]
  cases op <;> rfl

/-- Only names of functions stand for calls. -/
theorem of_instruction?_eq_call {f : Function} {count : Nat} {span : Span}
    (h : t.instruction? due after = some (.call f count span)) :
    t.kind = .function ∧ t.call? after = some (.call f count span) := by
  rw [instruction?] at h
  split at h
  · cases h
  · obtain ⟨value, -, hvalue⟩ := Option.map_eq_some_iff.mp h
    cases hvalue
  · next hkind => exact ⟨hkind, h⟩
  · cases h
  · split at h
    · split at h <;> cases h
    · obtain ⟨op, -, hop⟩ := Option.map_eq_some_iff.mp h
      cases hop

/-- Only marked tokens stand for an instruction, and it is found where the token is. -/
theorem of_instruction?_eq_some (h : t.instruction? due after = some i) :
    t.kind.marked due = true ∧ i.span.offset = t.offset := by
  rw [instruction?] at h
  split at h
  · next hkind =>
    cases h
    exact ⟨by rw [hkind]; rfl, rfl⟩
  · next hkind =>
    obtain ⟨value, -, rfl⟩ := Option.map_eq_some_iff.mp h
    exact ⟨by rw [hkind]; rfl, rfl⟩
  · next hkind =>
    obtain ⟨opening, inside, f, closing, count, -, -, -, rfl⟩ := exists_of_call?_eq_some h
    exact ⟨by rw [hkind]; rfl, rfl⟩
  · next hkind =>
    cases h
    exact ⟨by rw [hkind]; rfl, rfl⟩
  · rw [TokenKind.marked, Bool.or_eq_true]
    split at h
    · next hdue =>
      split at h
      · next hnegates =>
        cases h
        exact ⟨.inr (by rw [hdue, if_pos rfl]; exact decide_eq_true hnegates), rfl⟩
      · cases h
    · next hdue =>
      obtain ⟨op, hop, rfl⟩ := Option.map_eq_some_iff.mp h
      exact ⟨.inr (by rw [if_neg hdue, hop]; rfl), rfl⟩

end Token

/-! ## Reading from left to right -/

/-- What tokens **write**, from left to right: the instruction of every token that stands for one. The
others must be bare. -/
inductive Writes : Bool → List Token → List Instruction → Prop
  | nil {due : Bool} : Writes due [] []
  | bare {due : Bool} {t : Token} {ts : List Token} {is : List Instruction}
      (bare : t.kind.bare due = true) (rest : Writes (!t.kind.endsOperand) ts is) :
      Writes due (t :: ts) is
  | mark {due : Bool} {t : Token} {ts : List Token} {i : Instruction} {is : List Instruction}
      (stands : t.instruction? due ts = some i) (rest : Writes (!t.kind.endsOperand) ts is) :
      Writes due (t :: ts) (i :: is)

namespace Writes

variable {before ts : List Token} {is : List Instruction}

/-- Every token is bare or writes its instruction. -/
theorem of_mem_tokens {mid after : List Token} {t : Token}
    (h : Writes (operandDue before) (mid ++ t :: after) is) :
    t.kind.bare (operandDue (before ++ mid)) = true ∨
      ∃ i ∈ is, t.instruction? (operandDue (before ++ mid)) after = some i := by
  induction mid generalizing before is with
  | nil =>
    rw [List.append_nil]
    cases h with
    | bare bare rest => exact .inl bare
    | mark stands rest => exact .inr ⟨_, List.mem_cons_self .., stands⟩
  | cons u mid ih =>
    rw [List.append_cons before u mid]
    cases h with
    | bare bare rest =>
      rw [← operandDue_concat before] at rest
      exact ih rest
    | mark stands rest =>
      rw [← operandDue_concat before] at rest
      rcases ih rest with hbare | ⟨i, hi, hstands⟩
      · exact .inl hbare
      · exact .inr ⟨i, List.mem_cons_of_mem _ hi, hstands⟩

/-- Every instruction that is written is that of a token. -/
theorem exists_of_mem (h : Writes (operandDue before) ts is) {i : Instruction} (hi : i ∈ is) :
    ∃ mid t after, ts = mid ++ t :: after ∧
      t.instruction? (operandDue (before ++ mid)) after = some i := by
  induction ts generalizing before is with
  | nil =>
    cases h
    cases hi
  | cons u ts ih =>
    -- the token after the first one sees one token more before it
    have hlater : ∀ js, Writes (!u.kind.endsOperand) ts js → i ∈ js →
        ∃ mid t after, u :: ts = mid ++ t :: after ∧
          t.instruction? (operandDue (before ++ mid)) after = some i := by
      intro js hrest hjs
      rw [← operandDue_concat before] at hrest
      obtain ⟨mid, t, after, rfl, hstands⟩ := ih hrest hjs
      rw [← List.append_cons] at hstands
      exact ⟨u :: mid, t, after, rfl, hstands⟩
    cases h with
    | bare bare rest => exact hlater _ rest hi
    | mark stands rest =>
      rcases List.mem_cons.mp hi with rfl | hi
      · exact ⟨[], u, ts, rfl, by rwa [List.append_nil]⟩
      · exact hlater _ rest hi

/-- The places of the instructions are among those of the tokens, in the same order. -/
theorem sublist_offset {due : Bool} (h : Writes due ts is) :
    (is.map fun i => i.span.offset).Sublist (ts.map fun t => (t.offset : Int)) := by
  induction h with
  | nil => exact .slnil
  | bare bare rest ih => exact ih.cons _
  | mark stands rest ih =>
    rw [List.map_cons, List.map_cons, (Token.of_instruction?_eq_some stands).2]
    exact ih.cons_cons _

end Writes

/-! ## Reading the tokens of a tree -/

/-- Whether an instruction pushes a number. -/
def Instruction.isNumber : Instruction → Bool
  | .number .. => true
  | _ => false

/-- Tokens that begin where an operand is due and complete one **stand for** instructions: these are
the ones that they write, and the numbers among them have the order of the tokens. -/
def StandsFor (ts : List Token) (is : List Instruction) : Prop :=
  ∃ js, js.Perm is ∧ js.filter Instruction.isNumber = is.filter Instruction.isNumber ∧
    ∀ rest ks, Writes false rest ks → Writes true (ts ++ rest) (js ++ ks)

namespace StandsFor

variable {ts us : List Token} {is js : List Instruction} {t : Token} {i : Instruction}

/-- One token that stands for an instruction. -/
theorem single (ends : t.kind.endsOperand = true)
    (stands : ∀ rest, t.instruction? true rest = some i) : StandsFor [t] [i] := by
  refine ⟨[i], .refl _, rfl, ?_⟩
  intro rest ks hrest
  exact .mark (stands rest) (by rwa [ends])

/-- A bare token before an operand. -/
theorem cons_bare (h : StandsFor ts is) (bare : t.kind.bare true = true)
    (ends : t.kind.endsOperand = false) : StandsFor (t :: ts) is := by
  obtain ⟨js, hperm, hnumbers, hwrites⟩ := h
  refine ⟨js, hperm, hnumbers, ?_⟩
  intro rest ks hrest
  refine .bare bare ?_
  rw [ends]
  exact hwrites rest ks hrest

/-- An instruction that is written before its operands, and comes after them. -/
theorem cons_mark (h : StandsFor ts is) (hi : i.isNumber = false)
    (stands : ∀ rest, t.instruction? true (ts ++ rest) = some i) (ends : t.kind.endsOperand = false) :
    StandsFor (t :: ts) (is ++ [i]) := by
  obtain ⟨js, hperm, hnumbers, hwrites⟩ := h
  have hno : ¬ i.isNumber = true := by rw [hi]; exact Bool.false_ne_true
  refine ⟨i :: js, (hperm.cons i).trans (List.perm_append_singleton i is).symm, ?_, ?_⟩
  · rw [List.filter_append, ← hnumbers, List.filter_cons_of_neg hno, List.filter_cons_of_neg hno,
      List.filter_nil, List.append_nil]
  · intro rest ks hrest
    refine .mark (stands rest) ?_
    rw [ends]
    exact hwrites rest ks hrest

/-- A bare token after an operand. -/
theorem concat_bare (h : StandsFor ts is) (bare : t.kind.bare false = true)
    (ends : t.kind.endsOperand = true) : StandsFor (ts ++ [t]) is := by
  obtain ⟨js, hperm, hnumbers, hwrites⟩ := h
  refine ⟨js, hperm, hnumbers, ?_⟩
  intro rest ks hrest
  rw [List.append_assoc]
  refine hwrites _ ks (.bare bare ?_)
  rwa [ends]

/-- An instruction that is written after its operand. -/
theorem concat_mark (h : StandsFor ts is) (stands : ∀ rest, t.instruction? false rest = some i)
    (ends : t.kind.endsOperand = true) : StandsFor (ts ++ [t]) (is ++ [i]) := by
  obtain ⟨js, hperm, hnumbers, hwrites⟩ := h
  refine ⟨js ++ [i], hperm.append_right [i], ?_, ?_⟩
  · rw [List.filter_append, List.filter_append, hnumbers]
  · intro rest ks hrest
    rw [List.append_assoc, List.append_assoc]
    refine hwrites _ _ (.mark (stands rest) ?_)
    rwa [ends]

/-- A bare token between two operands. -/
theorem append_bare (h : StandsFor ts is) (bare : t.kind.bare false = true)
    (ends : t.kind.endsOperand = false) (hu : StandsFor us js) :
    StandsFor (ts ++ t :: us) (is ++ js) := by
  obtain ⟨is', hperm, hnumbers, hwrites⟩ := h
  obtain ⟨js', hperm', hnumbers', hwrites'⟩ := hu
  refine ⟨is' ++ js', hperm.append hperm', ?_, ?_⟩
  · rw [List.filter_append, List.filter_append, hnumbers, hnumbers']
  · intro rest ks hrest
    rw [List.append_assoc, List.append_assoc]
    refine hwrites _ _ (.bare bare ?_)
    rw [ends]
    exact hwrites' rest ks hrest

/-- An instruction that is written between its operands, and comes after them. -/
theorem append_mark (h : StandsFor ts is) (hi : i.isNumber = false)
    (stands : ∀ rest, t.instruction? false rest = some i) (ends : t.kind.endsOperand = false)
    (hu : StandsFor us js) : StandsFor (ts ++ t :: us) (is ++ (js ++ [i])) := by
  obtain ⟨is', hperm, hnumbers, hwrites⟩ := h
  obtain ⟨js', hperm', hnumbers', hwrites'⟩ := hu
  have hno : ¬ i.isNumber = true := by rw [hi]; exact Bool.false_ne_true
  refine ⟨is' ++ i :: js', hperm.append ?_, ?_, ?_⟩
  · exact (hperm'.cons i).trans (List.perm_append_singleton i js).symm
  · rw [List.filter_append, List.filter_append, List.filter_append, hnumbers,
      List.filter_cons_of_neg hno, List.filter_cons_of_neg hno, hnumbers', List.filter_nil,
      List.append_nil]
  · intro rest ks hrest
    rw [List.append_assoc, List.append_assoc]
    refine hwrites _ _ (.mark (stands _) ?_)
    rw [ends]
    exact hwrites' rest ks hrest

end StandsFor

/-- **The tokens of a phrase stand for the instructions of its trees.** -/
theorem Reads.standsFor {s : Stratum} {ts : List Token} {trees : List Tree} (h : Reads s ts trees) :
    StandsFor ts (Tree.postorders trees) := by
  induction h with
  | number kind =>
    rw [Tree.postorders_singleton, Tree.postorder]
    exact .single (by rw [kind]; rfl) fun rest => by rw [Token.instruction?, kind]
  | constant kind known =>
    rw [Tree.postorders_singleton, Tree.postorder]
    refine .single (by rw [kind]; rfl) fun rest => ?_
    rw [Token.instruction?, kind, known]
    rfl
  | group opens inner closes ih =>
    refine .cons_bare (.concat_bare ih ?_ ?_) ?_ ?_
    · rw [closes]; rfl
    · rw [closes]; rfl
    · rw [opens]; rfl
    · rw [opens]; rfl
  | @call name opening closing f ts trees kind known opens inner closes arity ih =>
    rw [Tree.postorders_singleton, Tree.postorder]
    refine .cons_mark (.cons_bare (.concat_bare ih ?_ ?_) ?_ ?_) rfl ?_ ?_
    · rw [closes]; rfl
    · rw [closes]; rfl
    · rw [opens]; rfl
    · rw [opens]; rfl
    · intro rest
      -- the tokens of the arguments do not close the call
      rw [List.cons_append, List.append_assoc]
      exact Token.instruction?_call kind known (inner.holds.closing?_eq closes rest)
    · rw [kind]; rfl
  | factorial inner kind ih =>
    rw [Tree.postorders_singleton, Tree.postorder]
    rw [Tree.postorders_singleton] at ih
    refine .concat_mark ih (fun rest => ?_) (by rw [kind]; rfl)
    rw [Token.instruction?, kind]
  | negation kind inner ih =>
    rw [Tree.postorders_singleton, Tree.postorder]
    rw [Tree.postorders_singleton] at ih
    exact .cons_mark ih rfl (fun rest => Token.instruction?_negation kind)
      (TokenKind.endsOperand_of_negation kind)
  | plus kind inner ih => exact .cons_bare ih (by rw [kind]; rfl) (by rw [kind]; rfl)
  | operation left kind level right ihl ihr =>
    rw [Tree.postorders_singleton, Tree.postorder]
    rw [Tree.postorders_singleton] at ihl ihr
    exact .append_mark ihl rfl (fun rest => Token.instruction?_operation kind)
      (TokenKind.endsOperand_of_operator kind) ihr
  | comma left kind right ihl ihr =>
    rw [Tree.postorders_append]
    exact .append_bare ihl (by rw [kind]; rfl) (by rw [kind]; rfl) ihr
  | primary inner ih => exact ih
  | factor inner ih => exact ih
  | operand inner ih => exact ih
  | lower inner ih => exact ih
  | argument inner ih => exact ih

/-- **The instructions of an expression are written at its tokens**: from left to right they are the
postorder of its tree in another order, but for the numbers. -/
theorem Reads.writes {s : Stratum} {ts : List Token} {tree : Tree} (h : Reads s ts [tree])
    {last : Token} (hlast : last.kind = .finish) :
    ∃ is, Writes true (ts ++ [last]) is ∧ is.Perm tree.postorder ∧
      is.filter Instruction.isNumber = tree.postorder.filter Instruction.isNumber := by
  obtain ⟨is, hperm, hnumbers, hwrites⟩ := h.standsFor
  rw [Tree.postorders_singleton] at hperm hnumbers
  have hend := hwrites [last] [] (.bare (by rw [hlast]; rfl) .nil)
  rw [List.append_nil] at hend
  exact ⟨is, hend, hperm, hnumbers⟩

end Reckoner
