import Reckoner.Postfix.Program
import Reckoner.Symbol.Lookup
import Reckoner.Token.Cursor

/-! # Assembling programs from tokens

Turns the tokens of an expression into a postfix program with one pass and two stacks: operators
wait on the one until their right operand is complete, and calls count their arguments on the other.

* **`Pending`** — what waits on the stack: an open bracket, a call, a negation or an operator.
* **`Assembler`** — the stacks, the instructions so far, and the bracket depth. It keeps what it
  holds when a fault is met, so that a later pass goes on from there.
* **`Expectation`** — what the next token should be.
* **`Assembler.accept`** — the effect of one token.
* **`Assembler.run`** — accepts tokens from a cursor until the program is complete or a fault is
  met. -/

namespace Reckoner

/-- What waits on the stack of an assembler. -/
inductive Pending where
  | paren (offset : Nat)
  | call (function : Function) (offset : Nat)
  | negation (offset : Nat)
  | operation (operator : Operator) (offset : Nat)
  deriving DecidableEq

/-- The **state of an assembly**. -/
structure Assembler where
  /-- The expression that tokens come from. -/
  source : String
  /-- How many brackets may be open at once. -/
  maxDepth : Int
  /-- What waits, the latest first. -/
  pending : List Pending
  /-- The instructions so far, the latest first. -/
  emitted : List Instruction
  /-- The arguments counted so far in each open call, the innermost first. -/
  counts : List Nat
  /-- How many brackets are open. -/
  depth : Nat
  deriving DecidableEq

/-- What the next token should be. -/
inductive Expectation where
  /-- An operand, or a sign before one. -/
  | operand
  /-- An operator, or the end of an operand. -/
  | operator
  /-- The bracket after the name of a function at the given place. -/
  | bracket (function : Function) (offset : Nat)
  /-- An operand, right after the bracket at the given place, which belongs to a call when a function
  is given. -/
  | firstOperand (function : Option Function) (offset : Nat)
  deriving DecidableEq

/-- The signs that may stand before an operand, and whether they negate it. -/
def TokenKind.sign? : TokenKind → Option Bool
  | .plus => some false
  | .minus => some true
  | .plusMinus => some true
  | .minusPlus => some true
  | _ => none

/-- What waits at the top of the stack comes out as instructions as long as `ready` holds of it.
Brackets and calls stay. -/
def release (ready : Pending → Bool) : List Pending → List Instruction →
    List Pending × List Instruction
  | .negation o :: rest, out =>
    if ready (.negation o) then release ready rest (.negate o :: out)
    else (.negation o :: rest, out)
  | .operation op o :: rest, out =>
    if ready (.operation op o) then release ready rest (.operation op o :: out)
    else (.operation op o :: rest, out)
  | stack, out => (stack, out)

/-- Whether a waiting entry must be computed before an operator of the given precedence takes its
left operand. -/
def Pending.bindsLeftOf (precedence : Nat) : Pending → Bool
  | .negation _ => true
  | .operation op _ => precedence ≤ op.precedence
  | _ => false

/-- Whether a waiting entry is an open bracket. -/
def Pending.isParen : Pending → Bool
  | .paren _ => true
  | _ => false

/-- What a token leads to: the next expectation, the end of the program, or a fault; and the
assembler after it. -/
inductive Progress where
  | continue (expectation : Expectation)
  | complete
  | fault (fault : Fault)
  deriving DecidableEq

namespace Assembler

/-- An assembler before the first token. -/
def start (source : String) (maxDepth : Int) : Assembler := ⟨source, maxDepth, [], [], [], 0⟩

/-- The program that has been assembled. -/
def program (a : Assembler) : Program := ⟨a.source, a.emitted.reverse⟩

/-- A fault in the expression. -/
def faultAt (a : Assembler) (cause : Cause) (offset length : Nat) : Progress :=
  .fault ⟨cause, a.source, offset, length⟩

/-- Releases every operator and negation down to the nearest bracket. -/
def releaseToParen (a : Assembler) : Assembler :=
  let (pending, emitted) := release (fun _ => true) a.pending a.emitted
  { a with pending, emitted }

/-- An operand is complete and comes out. -/
def emit (a : Assembler) (i : Instruction) : Assembler := { a with emitted := i :: a.emitted }

/-- A bracket opens, after the name of a function if one is given. -/
def openParen (a : Assembler) (call : Option (Function × Nat)) (offset : Nat) :
    Progress × Assembler :=
  let a := { a with depth := a.depth + 1 }
  if a.maxDepth < a.depth then (a.faultAt (.nestingTooDeep a.maxDepth) offset 1, a)
  else
    match call with
    | none =>
      (.continue (.firstOperand none offset), { a with pending := .paren offset :: a.pending })
    | some (f, name) =>
      (.continue (.firstOperand (some f) offset),
        { a with
          pending := .paren offset :: .call f name :: a.pending
          counts := 1 :: a.counts })

/-- The effect of a token where an operand is due. -/
def acceptOperand (a : Assembler) (t : Token) : Progress × Assembler :=
  match t.kind.sign? with
  | some negates =>
    (.continue .operand,
      if negates then { a with pending := .negation t.offset :: a.pending } else a)
  | none =>
    let span : Span := ⟨t.offset, t.literal.length⟩
    match t.kind with
    | .number =>
      (.continue .operator, a.emit (.number (Binary64.ofNumeral t.literal.toList) span))
    | .variable =>
      match constant? t.literal with
      | some value => (.continue .operator, a.emit (.number value span))
      | none =>
        (a.faultAt (.unknownVariable t.literal (function? t.literal).isSome) t.offset
          t.literal.length, a)
    | .function =>
      match function? t.literal with
      | some f => (.continue (.bracket f t.offset), a)
      | none => (a.faultAt (.unknownFunction t.literal) t.offset t.literal.length, a)
    | .openParen => a.openParen none t.offset
    | .finish => (a.faultAt .endsBeforeOperand t.offset 1, a)
    | _ => (a.faultAt (.notAnOperand t.literal) t.offset t.literal.length, a)

/-- An operator takes what was read before as its left operand and waits for its right one. -/
def suspend (a : Assembler) (op : Operator) (offset : Nat) : Assembler :=
  let (pending, emitted) := release (Pending.bindsLeftOf op.precedence) a.pending a.emitted
  { a with pending := .operation op offset :: pending, emitted }

/-- A comma ends an argument of the innermost call. -/
def acceptComma (a : Assembler) (offset : Nat) : Progress × Assembler :=
  let a := a.releaseToParen
  match a.pending with
  | .paren _ :: .call .. :: _ =>
    (.continue .operand, { a with counts := a.counts.modifyHead (· + 1) })
  | _ => (a.faultAt .misplacedComma offset 1, a)

/-- A call is complete; its function must take as many arguments as were counted. -/
def closeCall (a : Assembler) (f : Function) (offset stop : Nat) : Progress × Assembler :=
  let received := a.counts.headD 1
  let a := { a with counts := a.counts.tail }
  let call := a.emit (.call f received ⟨offset, ((stop - offset : Nat) : Int)⟩)
  match f.arity? with
  | none => (.continue .operator, call)
  | some expected =>
    if received = expected then (.continue .operator, call)
    else (a.faultAt (.arityMismatch f.name expected received) offset (stop - offset), a)

/-- A bracket closes, and with it a call whose arguments it held. -/
def acceptClose (a : Assembler) (t : Token) : Progress × Assembler :=
  let a := a.releaseToParen
  match a.pending with
  | .paren _ :: .call f offset :: rest =>
    closeCall { a with pending := rest, depth := a.depth - 1 } f offset t.stop
  | .paren _ :: rest => (.continue .operator, { a with pending := rest, depth := a.depth - 1 })
  | _ => (a.faultAt .unmatchedClose t.offset 1, a)

/-- The expression ends; no bracket may be open. The outermost open bracket is reported. -/
def acceptFinish (a : Assembler) : Progress × Assembler :=
  match a.pending.reverse.find? Pending.isParen with
  | some (.paren offset) => (a.faultAt .unclosedParen offset 1, a)
  | _ => (.complete, a.releaseToParen)

/-- The effect of a token after an operand. -/
def acceptOperator (a : Assembler) (t : Token) : Progress × Assembler :=
  match t.kind.operator? with
  | some op => (.continue .operand, a.suspend op t.offset)
  | none =>
    match t.kind with
    | .factorial => (.continue .operator, a.emit (.factorial t.offset))
    | .comma => a.acceptComma t.offset
    | .closeParen => a.acceptClose t
    | .finish => a.acceptFinish
    | _ => (a.faultAt (.missingOperator t.literal) t.offset t.literal.length, a)

/-- The fault of a bracket that closes right after it opened. -/
def emptyParens (a : Assembler) (f : Option Function) (offset stop : Nat) : Progress × Assembler :=
  (a.faultAt (.emptyParens (f.map Function.name)) offset (stop - offset), a)

/-- The **effect of a token**. A character that belongs to no token is a fault wherever it
stands. -/
def accept (a : Assembler) (e : Expectation) (t : Token) : Progress × Assembler :=
  if t.kind = .illegal then (a.faultAt (.illegalCharacter t.literal) t.offset 1, a)
  else
    match e with
    | .operand => a.acceptOperand t
    | .operator => a.acceptOperator t
    | .bracket f name =>
      if t.kind = .openParen then a.openParen (some (f, name)) t.offset else a.acceptOperand t
    | .firstOperand f offset =>
      if t.kind = .closeParen then a.emptyParens f offset t.stop else a.acceptOperand t

/-! ## Progress -/

/-- Where an operand is due, the end is a fault. -/
theorem acceptOperand_finish {a : Assembler} {t : Token} (h : t.kind = .finish) :
    ∃ f, (a.acceptOperand t).1 = .fault f := by
  simp [acceptOperand, h, TokenKind.sign?, faultAt]

/-- Where an operator is due, nothing goes on after the end. -/
theorem acceptOperator_finish {a : Assembler} {t : Token} (h : t.kind = .finish)
    (e : Expectation) : (a.acceptOperator t).1 ≠ .continue e := by
  have hop : TokenKind.finish.operator? = none := rfl
  simp only [acceptOperator, h, hop, acceptFinish]
  split <;> simp [faultAt]

/-- The end token never leads to a further expectation. -/
theorem accept_finish {a : Assembler} {e e' : Expectation} {t : Token} (h : t.kind = .finish) :
    (a.accept e t).1 ≠ .continue e' := by
  obtain ⟨f, hf⟩ := acceptOperand_finish (a := a) h
  cases e with
  | operand => simp [accept, h, hf]
  | operator => simpa [accept, h] using acceptOperator_finish h e'
  | bracket => simp [accept, h, hf]
  | firstOperand => simp [accept, h, hf]

/-- **Assembles a program** from the tokens that a cursor yields, beginning with the given
expectation. The result is the program or the first fault, with the assembler and the cursor as they
are then. -/
def resume (a : Assembler) (e : Expectation) (c : Cursor) :
    Except Fault Program × Assembler × Cursor :=
  match hc : c.next with
  | (.error f, c') => (.error f, a, c')
  | (.ok t, c') =>
    match ha : a.accept e t with
    | (.fault f, a') => (.error f, a', c')
    | (.complete, a') => (.ok a'.program, a', c')
    | (.continue e', a') =>
      have : c'.rest.length < c.rest.length := by
        have hk : t.kind ≠ .finish := by
          intro hk
          exact accept_finish hk (by rw [ha])
        have := Cursor.length_rest_next (c := c) (t := t) (by rw [hc]) hk
        rw [hc] at this
        exact this
      resume a' e' c'
termination_by c.rest.length

/-- Assembles a program from the tokens that a cursor yields, beginning where an operand is due. -/
def run (a : Assembler) (c : Cursor) : Except Fault Program × Assembler × Cursor :=
  a.resume .operand c

end Assembler

/-- The **program of an expression**, or its first fault. -/
def assemble (source : Option String) (maxDepth : Int) : Except Fault Program :=
  (Cursor.open? source).bind fun c => ((Assembler.start c.source maxDepth).run c).1

end Reckoner
