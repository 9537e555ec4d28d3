import Reckoner.Proofs.Postfix.Passes
import Reckoner.Proofs.Token.Spans

/-! # Where reading comes to a standstill

A cursor that has met the end of its text meets it again and again, and one that stands before a malformed
number does not get past it. An assembler whose cursor stands there meets the same fault in every pass and
keeps its stacks as they are. An illegal character is different: it is passed, and the next pass goes on
behind it.

* **`Cursor.Rests`** — asking for the next token gives the same result every time.
* **`Cursor.rests_of_next_finish`, `Cursor.rests_of_next_error`** — at the end, and before a malformed
  number.
* **`Bench.performAll_of_rests`** — what can then be done on a bench.
* **`Bench.standstill`** — all of this together, with what happens at an illegal character. -/

namespace Reckoner

/-! ## Cursors -/

namespace Cursor

variable {c c' d : Cursor} {t : Token} {f : Fault} {result : Except Fault Token}

/-- The text and the position are all that a cursor is. -/
theorem eq_of_index (source : c.source = d.source) (index : c.index = d.index) : c = d := by
  obtain ⟨s, i, r, hr, hi⟩ := c
  obtain ⟨s', i', r', hr', hi'⟩ := d
  obtain rfl : s = s' := source
  obtain rfl : i = i' := index
  obtain rfl := hr.trans hr'.symm
  rfl

/-- Nothing is skipped twice. -/
theorem skipBlanks_of_head (h : ∀ x ∈ c.rest.head?, isBlank x = false) : c.skipBlanks = c := by
  refine eq_of_index rfl ?_
  show c.index + (c.rest.take (c.rest.takeWhile isBlank).length).length = c.index
  cases hrest : c.rest with
  | nil => rfl
  | cons x rest =>
    have hx : ¬ isBlank x = true := Bool.eq_false_iff.mp (h x (by rw [hrest]; rfl))
    rw [List.takeWhile_cons_of_neg hx]
    rfl

/-- A cursor **rests** with a result when asking for the next token gives that, and the cursor stays where
it is. -/
def Rests (c : Cursor) (result : Except Fault Token) : Prop := c.next = (result, c)

/-- A cursor at rest is where it was after any number of reads. -/
theorem Rests.afterNexts (h : c.Rests result) (n : Nat) : c.afterNexts n = c := by
  induction n with
  | zero => rfl
  | succ n ih =>
    rw [Cursor.afterNexts, ih, h]

/-- A cursor that has skipped blanks and nothing else rests. -/
theorem rests_of_next_skipBlanks (read : c.next = (result, c.skipBlanks)) : c.skipBlanks.Rests result := by
  have hskip : c.skipBlanks.skipBlanks = c.skipBlanks := skipBlanks_of_head c.head_skipBlanks
  rw [Rests, ← read, next, next, hskip, source_skipBlanks]

/-- **At the end** of its text a cursor rests. -/
theorem rests_of_next_finish (read : c.next = (.ok t, c')) (last : t.kind = .finish) :
    c'.Rests (.ok t) := by
  obtain ⟨hrest, hindex, hstop, hsource⟩ := rest_of_next read
  obtain ⟨-, -, -, -, -, -, hfinish⟩ := exists_text_of_next read
  -- the end token has no characters
  have hsame : c' = c.skipBlanks := by
    refine eq_of_index hsource ?_
    rw [hstop, hindex, Token.stop, hfinish.mp last]
    rfl
  rw [hsame] at read ⊢
  exact rests_of_next_skipBlanks read

/-- A read that fails passes over blanks and no more. -/
theorem skipBlanks_of_next_error (read : c.next = (.error f, c')) : c' = c.skipBlanks := by
  obtain ⟨g, hscan, -⟩ := scanToken_of_next_error read
  rw [next_of_scanToken_error hscan] at read
  exact (congrArg Prod.snd read).symm

/-- **Before a malformed number** a cursor rests. -/
theorem rests_of_next_error (read : c.next = (.error f, c')) : c'.Rests (.error f) := by
  obtain rfl := skipBlanks_of_next_error read
  exact rests_of_next_skipBlanks read

/-- The end token is empty and stands at the end of the text, and so does the cursor then. -/
theorem eq_of_next_finish (read : c.next = (.ok t, c')) (last : t.kind = .finish) :
    t = ⟨.finish, "", c.source.length⟩ ∧ c'.index = c.source.length := by
  obtain ⟨-, -, -, -, -, hstop, hfinish⟩ := exists_text_of_next read
  have hliteral := hfinish.mp last
  have hoffset := offset_of_next_finish read last
  obtain ⟨kind, literal, offset⟩ := t
  obtain rfl : kind = .finish := last
  obtain rfl : literal = "" := hliteral
  obtain rfl : offset = c.source.length := hoffset
  exact ⟨rfl, hstop⟩

/-- When no token can be read, the blanks have been skipped, and a number that is malformed is next. -/
theorem malformed_of_next_error (read : c.next = (.error f, c')) :
    (∃ blanks, c.rest = blanks ++ c'.rest ∧ (∀ b ∈ blanks, isBlank b = true) ∧
      c'.index = c.index + blanks.length) ∧
    startsNumber c'.rest = true ∧ (f.kind = .invalidNumber ∨ f.kind = .scientificNotationSpacing) ∧
    ∃ g, scanNumber c'.rest = .error g ∧
      f = ⟨g.cause, c.source, (c'.index + g.start : Nat), g.length⟩ := by
  obtain ⟨g, hscan, hf⟩ := scanToken_of_next_error read
  obtain ⟨blanks, hrest, hblanks⟩ := c.exists_blanks
  obtain rfl := skipBlanks_of_next_error read
  obtain ⟨hstarts, hcauses⟩ := scanToken_eq_error hscan
  refine ⟨⟨blanks, hrest, hblanks, (index_add_length hrest rfl).symm⟩, hstarts, ?_, g, ?_, hf⟩
  · rw [hf]
    rcases hcauses with ⟨-, -, -, -, -, -, rfl⟩ | rfl
    · exact .inr rfl
    · exact .inl rfl
  · have hscans := scans_scanToken c.skipBlanks.rest
    rw [hscan] at hscans
    cases hscans with
    | malformed starts scan => exact scan

/-- **Every other token** takes the cursor further. -/
theorem index_lt_of_next (read : c.next = (.ok t, c')) (inner : t.kind ≠ .finish) : c.index < c'.index := by
  have hshorter := length_rest_of_next read inner
  have hsource := (rest_of_next read).2.2.2
  rw [c.length_rest, c'.length_rest, hsource] at hshorter
  omega

end Cursor

/-! ## Passes -/

namespace Assembler

variable {a a' : Assembler} {c c' : Cursor} {e : Expectation} {t : Token} {f : Fault}

/-- An illegal character changes nothing. -/
@[simp] theorem accept_illegal (kind : t.kind = .illegal) :
    a.accept e t = (.fault ⟨.illegalCharacter t.literal, a.source, t.offset, 1⟩, a) := by
  rw [accept.eq_def, if_pos kind]
  rfl

/-- The only lexical faults that an assembler finds are illegal characters. -/
theorem illegal_of_accept_lexical (h : a.accept e t = (.fault f, a')) (lexical : f.category = .lexical) :
    t.kind = .illegal := by
  have hstep := step_of_accept h
  generalize hprogress : Progress.fault f = progress at hstep
  cases hstep with
  | illegal kind => exact kind
  | _ => cases hprogress <;> cases lexical

/-- **What a lexical fault of a pass is**: a malformed number or an illegal character. -/
theorem exists_of_run_lexical (h : a.run c = (.error f, a', c')) (lexical : f.category = .lexical) :
    ∃ e c₁, Requests a .operand c a' e c₁ ∧
      (c₁.next = (.error f, c') ∨ ∃ t, c₁.next = (.ok t, c') ∧ t.kind = .illegal) := by
  obtain ⟨a₁, e, c₁, hrequests, hends⟩ := exists_ends a .operand c
  rw [← run, h] at hends
  cases hends with
  | unreadable read => exact ⟨e, c₁, hrequests, .inl read⟩
  | fault read accepted =>
    have hkind := illegal_of_accept_lexical accepted lexical
    have hsame := accepted.symm.trans (accept_illegal hkind)
    obtain rfl : a' = a₁ := (Prod.mk.inj hsame).2
    exact ⟨e, c₁, hrequests, .inr ⟨_, read, hkind⟩⟩

end Assembler

/-! ## Benches -/

namespace Bench

/-- Whether an action is a pass. -/
def Action.isPass : Action → Bool
  | .assemble => true
  | .next => false

/-- Where its cursor rests before a fault, nothing happens on a bench, but for that fault being met. -/
theorem perform_of_rests {b : Bench} {f : Fault} (h : b.cursor.Rests (.error f)) (action : Action) :
    b.perform action =
      { b with results := List.replicate ([action].countP Action.isPass) (.error f) ++ b.results } := by
  cases action with
  | next =>
    rw [perform, h]
    rfl
  | assemble =>
    rw [perform, Assembler.run, Assembler.resume_of_error h]
    rfl

/-- **Where its cursor rests before a fault**, every pass comes to that fault, and the assembler and the
cursor stay as they are. -/
theorem performAll_of_rests {b : Bench} {f : Fault} (h : b.cursor.Rests (.error f))
    (actions : List Action) :
    b.performAll actions =
      { b with results := List.replicate (actions.countP Action.isPass) (.error f) ++ b.results } := by
  induction actions generalizing b with
  | nil => rfl
  | cons action actions ih =>
    have hfirst := perform_of_rests h action
    have hrests : (b.perform action).cursor.Rests (.error f) := by
      rw [hfirst]
      exact h
    have hcount : (action :: actions).countP Action.isPass =
        actions.countP Action.isPass + [action].countP Action.isPass := by
      rw [← List.singleton_append, List.countP_append, Nat.add_comm]
    rw [performAll, List.foldl_cons, ← performAll, ih hrests, hfirst, hcount,
      ← List.replicate_append_replicate, List.append_assoc]

/-- **The end and malformed numbers are not passed.** Once a cursor has yielded the end token, it stands
at the end of its text and yields that token however often it is asked. Once it has met a fault, it stands
at the first character of the malformed number, behind the blanks before it, and meets the same fault
there however often it is asked. Every other token takes it further.

So, when a pass asks for a token and a malformed number is next, that pass and every later one come to the
same fault, and the stacks of the assembler stay as they were at that moment. When the token is an illegal
character, they stay as well, but the cursor then stands behind that character, and the next pass begins
with the token there. These are the lexical faults of passes. -/
theorem standstill :
    (∀ (c c' : Cursor) (t : Token), c.next = (.ok t, c') → t.kind = .finish →
      t = ⟨.finish, "", c.source.length⟩ ∧ c'.index = c.source.length ∧
        ∀ n, c'.afterNexts n = c' ∧ (c'.afterNexts n).next = (.ok t, c')) ∧
    (∀ (c c' : Cursor) (f : Fault), c.next = (.error f, c') →
      (∃ blanks, c.rest = blanks ++ c'.rest ∧ (∀ b ∈ blanks, isBlank b = true) ∧
        c'.index = c.index + blanks.length) ∧
      startsNumber c'.rest = true ∧ (f.kind = .invalidNumber ∨ f.kind = .scientificNotationSpacing) ∧
      (∃ g, scanNumber c'.rest = .error g ∧
        f = ⟨g.cause, c.source, (c'.index + g.start : Nat), g.length⟩) ∧
      ∀ n, c'.afterNexts n = c' ∧ (c'.afterNexts n).next = (.error f, c')) ∧
    (∀ (c c' : Cursor) (t : Token), c.next = (.ok t, c') → t.kind ≠ .finish → c.index < c'.index) ∧
    (∀ (b : Bench) a e c c' f, Assembler.Requests b.assembler .operand b.cursor a e c →
      c.next = (.error f, c') →
        b.perform .assemble = ⟨a, c', .error f :: b.results⟩ ∧
        ∀ actions, (b.perform .assemble).performAll actions =
          ⟨a, c', List.replicate (actions.countP Action.isPass) (.error f) ++ .error f :: b.results⟩) ∧
    (∀ (b : Bench) a e c c' t, Assembler.Requests b.assembler .operand b.cursor a e c →
      c.next = (.ok t, c') → t.kind = .illegal →
        b.perform .assemble =
          ⟨a, c', .error ⟨.illegalCharacter t.literal, b.assembler.source, t.offset, 1⟩ :: b.results⟩ ∧
        c'.index = t.offset + 1 ∧
        ∀ u c'' e' a', c'.next = (.ok u, c'') → a.accept .operand u = (.continue e', a') →
          a.run c' = a'.resume e' c'') ∧
    ∀ (b : Bench) a c f, b.assembler.run b.cursor = (.error f, a, c) → f.category = .lexical →
      ∃ e c₁, Assembler.Requests b.assembler .operand b.cursor a e c₁ ∧
        (c₁.next = (.error f, c) ∨ ∃ t, c₁.next = (.ok t, c) ∧ t.kind = .illegal) := by
  refine ⟨?_, ?_, fun c c' t read inner => Cursor.index_lt_of_next read inner, ?_, ?_,
    fun b a c f h lexical => Assembler.exists_of_run_lexical h lexical⟩
  · intro c c' t read last
    obtain ⟨ht, hindex⟩ := Cursor.eq_of_next_finish read last
    have hrests := Cursor.rests_of_next_finish read last
    refine ⟨ht, hindex, fun n => ?_⟩
    rw [hrests.afterNexts]
    exact ⟨rfl, hrests⟩
  · intro c c' f read
    obtain ⟨hblanks, hstarts, hkind, hscan⟩ := Cursor.malformed_of_next_error read
    have hrests := Cursor.rests_of_next_error read
    refine ⟨hblanks, hstarts, hkind, hscan, fun n => ?_⟩
    rw [hrests.afterNexts]
    exact ⟨rfl, hrests⟩
  · intro b a e c c' f hrequests read
    have hpass : b.perform .assemble = ⟨a, c', .error f :: b.results⟩ := by
      rw [perform, Assembler.run, hrequests.resume_eq, Assembler.resume_of_error read]
    have hrests : (b.perform .assemble).cursor.Rests (.error f) := by
      rw [hpass]
      exact Cursor.rests_of_next_error read
    refine ⟨hpass, fun actions => ?_⟩
    rw [performAll_of_rests hrests, hpass]
  · intro b a e c c' t hrequests read kind
    have hsource := hrequests.source_eq.1
    have hstop : c'.index = t.offset + 1 := by
      rw [(Cursor.rest_of_next read).2.2.1, Token.stop, Cursor.length_of_illegal read kind]
    refine ⟨?_, hstop, fun u c'' e' a' next accepted => Assembler.resume_of_continue next accepted⟩
    rw [perform, Assembler.run, hrequests.resume_eq,
      Assembler.resume_of_fault read (Assembler.accept_illegal kind), hsource]

/-- The end of a blank text is met again. The second pass over `1#2 3e 4` goes on behind the illegal
character and comes to the blank in the exponent; so does the one after it, although a token has been
asked for in between, and the assembler does not change. -/
theorem standstill_exponent :
    ((Cursor.atStart " ").next.2.afterNexts 3).next.1 = .ok ⟨.finish, "", 1⟩ ∧
    ((start (.atStart "1#2 3e 4") 5).performAll [.assemble, .assemble, .next, .assemble]).results =
      [.error ⟨.exponentSpacing, "1#2 3e 4", 5, 2⟩, .error ⟨.exponentSpacing, "1#2 3e 4", 5, 2⟩,
        .error ⟨.illegalCharacter "#", "1#2 3e 4", 1, 1⟩] ∧
    ((start (.atStart "1#2 3e 4") 5).performAll [.assemble, .assemble, .next, .assemble]).assembler =
      ((start (.atStart "1#2 3e 4") 5).performAll [.assemble, .assemble]).assembler := by
  obtain ⟨hfinish, -, -, hmalformed, hillegal, hlexical⟩ := standstill
  have hend : (Cursor.atStart " ").next.1 = .ok ⟨.finish, "", 1⟩ := by decide +kernel
  obtain ⟨-, -, hagain⟩ := hfinish _ _ _ (Prod.ext hend rfl) rfl
  refine ⟨congrArg Prod.fst (hagain 3).2, ?_⟩
  have hfirst : ((start (.atStart "1#2 3e 4") 5).perform .assemble).results =
      [.error ⟨.illegalCharacter "#", "1#2 3e 4", 1, 1⟩] := by
    decide +kernel
  generalize hbench : (start (.atStart "1#2 3e 4") 5).perform .assemble = b at hfirst
  have hsecond : (b.assembler.run b.cursor).1 = .error ⟨.exponentSpacing, "1#2 3e 4", 5, 2⟩ := by
    rw [← hbench]
    decide +kernel
  have hafter : ∀ actions, (start (.atStart "1#2 3e 4") 5).performAll (.assemble :: .assemble :: actions) =
      (b.perform .assemble).performAll actions := by
    intro actions
    rw [← hbench]
    rfl
  rw [hafter, hafter]
  obtain ⟨e, c, hrequests, read | ⟨t, read, kind⟩⟩ := hlexical b _ _ _ (Prod.ext hsecond rfl) rfl
  · obtain ⟨hpass, hlater⟩ := hmalformed b _ e c _ _ hrequests read
    rw [hlater, hlater, hfirst]
    exact ⟨rfl, rfl⟩
  · -- the fault is not that of an illegal character
    have hresult := congrArg (fun b => b.results.head?) (hillegal b _ e c _ t hrequests read kind).1
    have hother : some (b.assembler.run b.cursor).1 =
        some (.error ⟨.illegalCharacter t.literal, _, _, 1⟩) := hresult
    rw [hsecond] at hother
    cases hother

end Bench

end Reckoner
