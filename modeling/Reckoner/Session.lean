import Reckoner.Postfix.Assembler
import Reckoner.Postfix.Machine

/-! # Sessions

Working on expressions step by step: a session reads tokens one at a time, hands the rest to an
assembler, asks it again after a fault, and runs programs.

* **`Session`** — the current cursor, the current assembler and the latest program.
* **`Step`** — what can be asked of a session.
* **`Reply`** — what comes of a step.
* **`Session.perform`** — the reply to a step, and the session after it.
* **`Session.performAll`** — the replies to several steps, each with the position of the cursor. -/

namespace Reckoner

/-- Where the tokens of an assembler come from. -/
inductive Supply where
  /-- From the current cursor. -/
  | current
  /-- From a cursor that was current before. -/
  | former (cursor : Cursor)

/-- A **session**. -/
structure Session where
  /-- The current cursor. -/
  cursor : Option Cursor := none
  /-- The current assembler, and where its tokens come from. -/
  assembler : Option (Assembler × Supply) := none
  /-- The latest program. -/
  program : Option Program := none

/-- What can be asked of a session. -/
inductive Step where
  /-- A new cursor at the beginning of an expression. -/
  | start (source : Option String)
  /-- The next token. -/
  | next
  /-- All tokens to the end. -/
  | rest
  /-- A new assembler on the current cursor. -/
  | prepare (maxDepth : Int)
  /-- The program that the current assembler makes of the tokens to come. -/
  | assemble
  /-- A program made by hand. -/
  | provide (program : Program)
  /-- The value of the latest program. -/
  | run

/-- What comes of a step. -/
inductive Reply where
  | done
  | token (token : Token)
  | tokens (tokens : List Token)
  | program (program : Program)
  | value (value : Binary64)
  | failure (failure : Failure)
  /-- The step needs a cursor, and there is none. -/
  | noCursor
  /-- The step needs an assembler, and there is none. -/
  | noAssembler
  /-- The step needs a program, and there is none. -/
  | noProgram

namespace Session

/-- The session with a new cursor. The assembler keeps the cursor that it was made for. -/
def withCursor (s : Session) (cursor : Cursor) : Session :=
  let assembler := s.assembler.map fun (a, supply) =>
    match supply, s.cursor with
    | .current, some former => (a, Supply.former former)
    | supply, _ => (a, supply)
  { s with cursor := some cursor, assembler }

/-- The cursor that a supply stands for. -/
def cursorOf (s : Session) : Supply → Option Cursor
  | .current => s.cursor
  | .former c => some c

/-- The session after its assembler has read up to a cursor. -/
def afterAssembly (s : Session) (a : Assembler) (supply : Supply) (c : Cursor) : Session :=
  match supply with
  | .current => { s with assembler := some (a, .current), cursor := some c }
  | .former _ => { s with assembler := some (a, .former c) }

/-- The reply to `assemble`. -/
def assemble (s : Session) : Reply × Session :=
  match s.assembler with
  | none => (.noAssembler, s)
  | some (a, supply) =>
    match s.cursorOf supply with
    | none => (.noCursor, s)
    | some c =>
      match a.run c with
      | (.ok p, a, c) => (.program p, { s.afterAssembly a supply c with program := some p })
      | (.error f, a, c) => (.failure (.ofFault f), s.afterAssembly a supply c)

/-- The reply to `next`. -/
def next (s : Session) : Reply × Session :=
  match s.cursor with
  | none => (.noCursor, s)
  | some c =>
    match c.next with
    | (.ok t, c) => (.token t, { s with cursor := some c })
    | (.error f, c) => (.failure (.ofFault f), { s with cursor := some c })

/-- The reply to `rest`. -/
def rest (s : Session) : Reply × Session :=
  match s.cursor with
  | none => (.noCursor, s)
  | some c =>
    match c.remaining with
    | (.ok ts, c) => (.tokens ts, { s with cursor := some c })
    | (.error f, c) => (.failure (.ofFault f), { s with cursor := some c })

/-- The reply to `run`. -/
def run [Numerics] (s : Session) : Reply :=
  match s.program with
  | none => .noProgram
  | some p =>
    match p.run with
    | .ok value => .value value
    | .error e => .failure e

/-- The **reply to a step**, and the session after it. A step that fails keeps what it has read; a
cursor that cannot be made leaves the current one. -/
def perform [Numerics] (s : Session) : Step → Reply × Session
  | .start source =>
    match Cursor.open? source with
    | .ok c => (.done, s.withCursor c)
    | .error f => (.failure (.ofFault f), s)
  | .next => s.next
  | .rest => s.rest
  | .prepare maxDepth =>
    match s.cursor with
    | none => (.noCursor, s)
    | some c => (.done, { s with assembler := some (.start c.source maxDepth, .current) })
  | .assemble => s.assemble
  | .provide p => (.program p, { s with program := some p })
  | .run => (s.run, s)

/-- The number of characters that the current cursor has read. -/
def index? (s : Session) : Option Nat := s.cursor.map Cursor.index

/-- The replies to several steps, each with the position of the cursor after the step. -/
def performAll [Numerics] (s : Session) : List Step → List (Reply × Option Nat)
  | [] => []
  | step :: rest =>
    let (reply, s) := s.perform step
    (reply, s.index?) :: performAll s rest

end Session

end Reckoner
