import Reckoner.Proofs.Expression.Marks
import Reckoner.Proofs.Postfix.Acceptance
import Reckoner.Proofs.Token.Spans

/-! # Where the faults of an assembly point

Every cause of a fault has its own place: one token, two brackets and what is between them, or a part of
a number. This file says which place each cause has, and that the faults of an assembly point there.

* **`SpansToken`, `SpansCall`** — the span of a token, and that of a call with its arguments.
* **`Cause.PointsAt`, `Fault.Exact`** — the place of each cause, and faults that point at theirs.
* **`LeavesOpen`, `Opened.exists_outermost`** — tokens that close no bracket before them, and the
  outermost bracket that is still open.
* **`Assembler.Reaches`** — what is known of a pass when it asks for its next token.
* **`exact_of_next_error`, `Assembler.Reaches.exact`** — what stands in the place of a token, and what
  a token leads to, has its place.
* **`exact_of_assemble_error`** — so every fault of an assembly has. -/

namespace Reckoner

/-! ## Spans of tokens and calls -/

/-- A span **is that of a token**, which is met after others. -/
structure SpansToken (s : String) (offset length : Nat) (before : List Token) (t : Token) : Prop where
  met : Cursor.Meets s before t
  begins : offset = t.offset
  covers : Covers s offset length t.literal.toList

/-- A span **is that of a call** of a function with so many arguments. It begins with the name, and ends
with the bracket that closes the one after the name. -/
inductive SpansCall (s : String) (f : Function) (count : Nat) : Nat → Nat → Prop
  | intro {before inside : List Token} {name opening closing : Token} {arguments : List Char}
      (met : Cursor.Meets s (before ++ name :: opening :: inside) closing)
      (kind : name.kind = .function) (known : function? name.literal = some f)
      (opens : opening.kind = .openParen)
      (closes : closing? 0 1 (inside ++ [closing]) = some (closing, count))
      (covers : Covers s name.offset (closing.stop - name.offset)
        (name.literal.toList ++ '(' :: arguments ++ [')'])) :
      SpansCall s f count name.offset (closing.stop - name.offset)

section Spans

variable {s : String} {before inside after : List Token} {t name opening closing : Token} {c : Cursor}

/-- Each of the tokens that are passed is met after those before it. -/
theorem Cursor.Passes.meets (h : (Cursor.atStart s).Passes (before ++ t :: after) c) :
    Cursor.Meets s before t := by
  obtain ⟨c₁, hbefore, hrest⟩ := h.split
  cases hrest with
  | cons read inner rest => exact ⟨c₁, _, hbefore, read⟩

/-- A token that is met spans its literal. -/
theorem Cursor.Meets.spansToken (h : Cursor.Meets s before t) :
    SpansToken s t.offset t.literal.length before t :=
  ⟨h, rfl, h.covers⟩

/-- The span of a token of one character. -/
theorem Cursor.Meets.spansToken_singleton {x : Char} (h : Cursor.Meets s before t)
    (text : t.literal.toList = [x]) :
    Covers s t.offset 1 [x] ∧ SpansToken s t.offset 1 before t := by
  have hcovers := h.covers
  rw [← String.length_toList, text] at hcovers
  exact ⟨hcovers, h, rfl, text ▸ hcovers⟩

/-- **The tokens of a call** have its span. -/
theorem Cursor.Meets.spansCall {f : Function} {count : Nat}
    (h : Cursor.Meets s (before ++ name :: opening :: inside) closing) (kind : name.kind = .function)
    (known : function? name.literal = some f) (opens : opening.kind = .openParen)
    (last : closing.kind = .closeParen)
    (closes : closing? 0 1 (inside ++ [closing]) = some (closing, count)) :
    SpansCall s f count name.offset (closing.stop - name.offset) := by
  obtain ⟨c, c', hpasses, read⟩ := h
  obtain ⟨c₁, hbefore, hcall⟩ := hpasses.split
  cases hcall with
  | cons first _ rest =>
    cases rest with
    | cons second _ inner =>
      obtain ⟨arguments, hcovers⟩ := covers_call first kind second opens inner read last
      rw [hbefore.source_eq] at hcovers
      exact .intro ⟨c, c', hpasses, read⟩ kind known opens closes hcovers

end Spans

/-! ## The place of each cause -/

/-- A **number begins** at a place, after some tokens. -/
def NumberBegins (s : String) (start : Nat) : Prop :=
  ∃ before c, (Cursor.atStart s).Passes before c ∧ c.skipBlanks.index = start ∧
    startsNumber (s.toList.drop start) = true

/-- **The place that a cause points at** in a text. No evaluation has one of the causes that point
nowhere. -/
def Cause.PointsAt (s : String) (offset length : Nat) : Cause → Prop
  | .missingInput => s = "" ∧ offset = 0 ∧ length = 0
  | .emptyInput => s = "" ∧ offset = 0 ∧ length = 0
  -- the characters beyond the limit
  | .inputTooLong size limit =>
    size = s.length ∧ limit = offset ∧ Covers s offset length (s.toList.drop offset)
  | .illegalCharacter text => ∃ before t, SpansToken s offset length before t ∧ t.kind = .illegal ∧
    t.literal = text ∧ length = 1
  -- the letter after a mantissa, and the blank after it
  | .exponentSpacing => ∃ start e b, NumberBegins s start ∧
    offset = start + mantissaWidth (s.toList.drop start) ∧ (e = 'e' ∨ e = 'E') ∧ isBlank b = true ∧
    Covers s offset length [e, b]
  | .invalidNumber literal => NumberBegins s offset ∧
    literal.toList = (s.toList.drop offset).takeWhile isNameChar ∧
    Covers s offset length literal.toList
  | .unknownVariable name isFunction => ∃ before t, SpansToken s offset length before t ∧
    t.kind = .variable ∧ t.literal = name ∧ constant? name = none ∧
    isFunction = (function? name).isSome
  | .unknownFunction name => ∃ before t, SpansToken s offset length before t ∧
    t.kind = .function ∧ t.literal = name ∧ function? name = none
  -- no bracket is open
  | .unmatchedClose => Covers s offset length [')'] ∧ ∃ before t, SpansToken s offset length before t ∧
    t.kind = .closeParen ∧ openBrackets before = 0
  -- the outermost of the brackets that are not closed before the end
  | .unclosedParen => Covers s offset length ['('] ∧
    ∃ before t after last, SpansToken s offset length before t ∧ t.kind = .openParen ∧
      openBrackets before = 0 ∧ Cursor.Meets s (before ++ t :: after) last ∧ last.kind = .finish ∧
      closing? 0 1 after = none
  | .emptyParens _ => ∃ blanks, (∀ b ∈ blanks, isBlank b = true) ∧
    Covers s offset length ('(' :: blanks ++ [')'])
  | .endsBeforeOperand => offset = s.length ∧ length = 1 ∧ ∃ before last,
    Cursor.Meets s before last ∧ last.kind = .finish ∧ operandDue before = true
  -- a token that no operand begins with, where one is due
  | .notAnOperand found => ∃ before t, SpansToken s offset length before t ∧ t.literal = found ∧
    operandDue before = true ∧ t.kind.sign? = none ∧
    t.kind ∉ [.number, .variable, .function, .openParen, .finish, .illegal]
  -- a token that begins an operand, where none is due
  | .missingOperator found => ∃ before t, SpansToken s offset length before t ∧ t.literal = found ∧
    operandDue before = false ∧ t.kind ∈ [.number, .variable, .function, .openParen]
  | .misplacedComma => Covers s offset length [','] ∧ ∃ before t, SpansToken s offset length before t ∧
    t.kind = .comma
  -- the bracket that is open beyond the limit
  | .nestingTooDeep limit => Covers s offset length ['('] ∧
    ∃ before t, SpansToken s offset length before t ∧ t.kind = .openParen ∧
      limit < openBrackets (before ++ [t])
  | .arityMismatch function expected received => expected ≠ received ∧
    ∃ (f : Function) (takes count : Nat), f.name = function ∧ f.arity? = some takes ∧
      expected = takes ∧ received = count ∧ SpansCall s f count offset length
  | .domain function _ => ∃ f count, Function.name f = function ∧ SpansCall s f count offset length
  | _ => False

/-- A fault is **exact** when it points at the place of its cause. -/
def Fault.Exact (f : Fault) : Prop :=
  ∃ offset length : Nat, f.offset = offset ∧ f.length = length ∧
    f.cause.PointsAt f.source offset length

/-! ## Faults in the place of a token -/

/-- What stands in the place of a token has its place. -/
theorem Cursor.exact_of_next_error {s : String} {us : List Token} {c c' : Cursor} {f : Fault}
    (passes : (atStart s).Passes us c) (read : c.next = (.error f, c')) : f.Exact := by
  obtain ⟨g, hscan, rfl⟩ := scanToken_of_next_error read
  obtain rfl : c.source = s := passes.source_eq
  have hrest : c.skipBlanks.rest = c.source.toList.drop c.skipBlanks.index := c.skipBlanks.rest_eq
  obtain ⟨starts, hfault⟩ := scanToken_eq_error hscan
  rw [hrest] at starts hfault
  have hbegins : NumberBegins c.source c.skipBlanks.index := ⟨us, c, passes, rfl, starts⟩
  rcases hfault with ⟨e, b, r, hdrop, letter, blank, rfl⟩ | rfl
  · refine ⟨_, 2, rfl, rfl, _, e, b, hbegins, rfl, letter, blank, rfl, ?_⟩
    rw [← List.drop_drop, hdrop]
    rfl
  · refine ⟨_, _, rfl, rfl, hbegins, String.toList_ofList, ?_, ?_⟩
    · exact congrArg List.length String.toList_ofList.symm
    · rw [malformedNumber, String.toList_ofList]
      exact List.prefix_iff_eq_take.mp (List.takeWhile_prefix _) |>.symm

/-! ## Brackets that stay open -/

/-- Tokens **leave open** a bracket before them when they close it nowhere. -/
def LeavesOpen (ts : List Token) : Prop :=
  ∃ depth count, ∀ rest, closing? 0 1 (ts ++ rest) = closing? depth (count + 1) rest

namespace LeavesOpen

variable {ts us : List Token} {t : Token} {n : Nat}

/-- No tokens. -/
theorem nil : LeavesOpen [] := ⟨0, 0, fun _ => rfl⟩

/-- Arguments leave it open. -/
theorem append (h : LeavesOpen ts) (hu : Holds n us) (pos : 0 < n) : LeavesOpen (ts ++ us) := by
  obtain ⟨depth, count, h⟩ := h
  by_cases hdepth : depth = 0
  · refine ⟨depth, count + n - 1, fun rest => ?_⟩
    rw [List.append_assoc, h, hu, if_pos hdepth, Nat.sub_add_cancel (by omega)]
  · refine ⟨depth, count, fun rest => ?_⟩
    rw [List.append_assoc, h, hu, if_neg hdepth]

/-- And so does one more bracket. -/
theorem concat (h : LeavesOpen ts) (opens : t.kind = .openParen) : LeavesOpen (ts ++ [t]) := by
  obtain ⟨depth, count, h⟩ := h
  refine ⟨depth + 1, count, fun rest => ?_⟩
  rw [List.append_assoc, h, List.singleton_append, closing?_open _ _ _ opens]

/-- A bracket that is left open has no closing one. -/
theorem closing?_eq_none (h : LeavesOpen ts) : closing? 0 1 ts = none := by
  obtain ⟨depth, count, h⟩ := h
  have hend := h []
  rwa [List.append_nil] at hend

end LeavesOpen

/-- What awaits an operand closes no bracket before it. -/
theorem Awaits.holds {part : List Token} (h : Awaits part) : Holds 1 part := by
  -- any operand shows it
  have hone : Derives .operand [⟨.number, "0", 0⟩] := .factor (.primary (.number rfl))
  obtain ⟨tree, hreads⟩ := (h _ hone).hasTree
  exact hreads.holds.of_concat (by decide)

/-- Neither do arguments that one more expression completes. -/
theorem holds_arguments {count : Nat} {args : List Token}
    (h : ∀ xs, Derives .expression xs → Derives (.arguments count) (args ++ xs)) :
    Holds count args ∧ 0 < count := by
  have hone : Derives .expression [⟨.number, "0", 0⟩] :=
    .operand (.factor (.primary (.number rfl)))
  refine ⟨?_, (h _ hone).arguments_pos⟩
  obtain ⟨trees, rfl, hreads⟩ := (h _ hone).hasTree
  exact hreads.holds.of_concat (by decide)

/-- Entries that are no brackets do not matter in front of a stack. -/
theorem find?_isParen_reverse {qs : List Pending} (others : ∀ q ∈ qs, q.isParen = false)
    (base : List Pending) :
    (qs ++ base).reverse.find? Pending.isParen = base.reverse.find? Pending.isParen := by
  have hnone : qs.reverse.find? Pending.isParen = none := by
    refine List.find?_eq_none.mpr fun q hq => ?_
    rw [others q (List.mem_reverse.mp hq)]
    exact Bool.false_ne_true
  rw [List.reverse_append, List.find?_append, hnone, Option.or_none]

namespace Opened

variable {base : List Pending} {counts : List Nat} {before : List Token} {o : Nat}

/-- A stack without brackets is that of no tokens. -/
theorem eq_nil (h : Opened base counts before) (none : base.reverse.find? Pending.isParen = none) :
    before = [] := by
  have hnone := List.find?_eq_none.mp none
  cases h with
  | nil => rfl
  | group => exact absurd rfl (hnone _ (List.mem_reverse.mpr (List.mem_cons_self ..)))
  | call => exact absurd rfl (hnone _ (List.mem_reverse.mpr (List.mem_cons_self ..)))

/-- **The outermost open bracket** waits with the place of its token. No bracket is open before that
token, and none after it closes it. -/
theorem exists_outermost (h : Opened base counts before)
    (first : base.reverse.find? Pending.isParen = some (.paren o)) :
    ∃ us opening after, before = us ++ opening :: after ∧ opening.kind = .openParen ∧
      opening.offset = o ∧ openBrackets us = 0 ∧ LeavesOpen after := by
  induction h with
  | nil => cases first
  | @group qs base counts before part opening below waiting awaits opens ih =>
    rw [List.reverse_cons, List.find?_append,
      find?_isParen_reverse fun q hq => (waiting q hq).isParen_eq_false] at first
    cases hbase : base.reverse.find? Pending.isParen with
    | none =>
      -- this bracket is the outermost
      rw [hbase] at first
      cases first
      obtain rfl := below.eq_nil hbase
      exact ⟨part, opening, [], rfl, opens, rfl, awaits.openBrackets_eq_zero, .nil⟩
    | some q =>
      rw [hbase, Option.some_or] at first
      obtain ⟨us, opening', after, rfl, opens', hoffset, hus, hafter⟩ := ih (hbase.trans first)
      exact ⟨us, opening', after ++ part ++ [opening], by simp, opens', hoffset, hus,
        (hafter.append awaits.holds Nat.one_pos).concat opens⟩
  | @call qs base counts before part args name opening f count below waiting awaits kind known opens
      arguments ih =>
    have hothers : ∀ q ∈ .call f name.offset :: qs, q.isParen = false :=
      List.forall_mem_cons.mpr ⟨rfl, fun q hq => (waiting q hq).isParen_eq_false⟩
    have hname : Holds 1 (part ++ [name]) := awaits.holds.append (.single (by rw [kind]; decide))
    obtain ⟨hargs, hcount⟩ := holds_arguments arguments
    rw [List.reverse_cons, List.find?_append, ← List.cons_append, find?_isParen_reverse hothers]
      at first
    cases hbase : base.reverse.find? Pending.isParen with
    | none =>
      rw [hbase] at first
      cases first
      obtain rfl := below.eq_nil hbase
      refine ⟨part ++ [name], opening, args, by simp, opens, rfl, ?_, LeavesOpen.nil.append hargs hcount⟩
      rw [openBrackets_append, awaits.openBrackets_eq_zero,
        openBrackets_of_kind kind (by decide) (by decide)]
      rfl
    | some q =>
      rw [hbase, Option.some_or] at first
      obtain ⟨us, opening', after, rfl, opens', hoffset, hus, hafter⟩ := ih (hbase.trans first)
      exact ⟨us, opening', after ++ (part ++ [name]) ++ [opening] ++ args, by simp, opens', hoffset,
        hus, ((hafter.append hname Nat.one_pos).concat opens).append hargs hcount⟩

end Opened

/-! ## What is known of a pass -/

/-- What the expectation recalls of the last token. -/
def Expectation.Recalls (us : List Token) : Expectation → Prop
  | .operand => operandDue us = true
  | .operator => operandDue us = false
  | .bracket .. => operandDue us = true
  | .firstOperand _ offset => ∃ before opening, us = before ++ [opening] ∧
    opening.kind = .openParen ∧ opening.offset = offset

/-- An operand is due where one is expected. -/
theorem Expectation.Recalls.operandDue_eq {e : Expectation} {us : List Token} {t : Token}
    (h : e.Recalls us) (due : e.TakesOperand t) : operandDue us = true := by
  cases e with
  | operand => exact h
  | operator => exact due.elim
  | bracket f o => exact h
  | firstOperand f o =>
    obtain ⟨before, opening, rfl, opens, -⟩ := h
    rw [operandDue_concat, opens]
    rfl

namespace Assembler

/-- Every token that leads on is recalled. -/
theorem Step.recalls {a a' : Assembler} {t : Token} {e e' : Expectation}
    (step : Step a t e (.continue e') a') (us : List Token) : e'.Recalls (us ++ [t]) := by
  have hends : ∀ b, t.kind.endsOperand = b → operandDue (us ++ [t]) = !b := by
    rintro _ rfl
    exact operandDue_concat us t
  cases step with
  | negation due kind =>
    exact hends false (TokenKind.endsOperand_of_negation (TokenKind.sign?_eq_true_iff.mp kind))
  | plus due kind => exact hends false (by rw [TokenKind.sign?_eq_false_iff.mp kind]; rfl)
  | number due kind => exact hends true (by rw [kind]; rfl)
  | constant due kind known => exact hends true (by rw [kind]; rfl)
  | name due kind known => exact hends false (by rw [kind]; rfl)
  | group due kind fits => exact ⟨us, t, rfl, kind, rfl⟩
  | call kind fits => exact ⟨us, t, rfl, kind, rfl⟩
  | operator kind => exact hends false (TokenKind.endsOperand_of_operator kind)
  | factorial kind => exact hends true (by rw [kind]; rfl)
  | comma kind top => exact hends false (by rw [kind]; rfl)
  | closeCall kind top arity => exact hends true (by rw [kind]; rfl)
  | closeGroup kind top plain => exact hends true (by rw [kind]; rfl)

/-- A pass over a text **has come** to a cursor, past some tokens, that it takes its next token from. -/
structure Reaches (s : String) (limit : Int) (us : List Token) (a : Assembler) (e : Expectation)
    (c : Cursor) : Prop where
  passes : (Cursor.atStart s).Passes us c
  feeds : (start s limit).feed .operand us = (.continue e, a)
  recalls : e.Recalls us
  same : a.source = s

/-- **A pass comes to each of its requests** past some tokens. -/
theorem Requests.exists_reaches {s : String} {limit : Int} {a : Assembler} {e : Expectation}
    {c : Cursor} (h : Requests (start s limit) .operand (.atStart s) a e c) :
    ∃ us, Reaches s limit us a e c := by
  induction h with
  | first => exact ⟨[], .nil, rfl, rfl, rfl⟩
  | @next a₁ a₂ e₁ e₂ c₁ c₂ t before read accepted ih =>
    obtain ⟨us, hreaches⟩ := ih
    have inner : t.kind ≠ .finish := fun last => accept_finish last (by rw [accepted])
    have step := step_of_accept accepted
    refine ⟨us ++ [t], ?_, ?_, step.recalls us, step.source_eq.1.trans hreaches.same⟩
    · exact Cursor.Passes.concat_iff.mpr ⟨inner, c₁, hreaches.passes, read⟩
    · rw [feed_append hreaches.feeds, feed_cons accepted, feed_nil]

namespace Reaches

variable {s : String} {limit : Int} {us : List Token} {a a' : Assembler} {e : Expectation}
  {c c' : Cursor} {t : Token}

/-- The next token is met after those that have been passed. -/
theorem meets (h : Reaches s limit us a e c) (read : c.next = (.ok t, c')) : Cursor.Meets s us t :=
  ⟨c, c', h.passes, read⟩

/-- What has been passed is the beginning of an expression. -/
theorem recognizes (h : Reaches s limit us a e c) (read : c.next = (.ok t, c')) :
    Recognizes limit a us e := by
  have calls : CallsOpen ([] ++ (us ++ [t])) := h.passes.callsOpen read
  exact (recognizes_start s limit).feed calls h.feeds

/-- The depth is the number of brackets that have been passed and are still open. -/
theorem depth_eq (h : Reaches s limit us a e c) (read : c.next = (.ok t, c')) :
    (a.depth : Int) = openBrackets us := by
  have hrecognizes := h.recognizes read
  rw [hrecognizes.coherent.depth, hrecognizes.agrees.openBrackets_eq, Nat.add_zero]

/-- No bracket is open when none waits. -/
theorem openBrackets_eq_zero (h : Reaches s limit us a .operator c) (read : c.next = (.ok t, c'))
    (top : ∀ o below, a.releaseToParen.pending ≠ .paren o :: below) : openBrackets us = 0 := by
  obtain ⟨base, before, tail, rfl, htail, opened, hbase⟩ :=
    (h.recognizes read).agrees.exists_expression
  rw [hbase] at top
  generalize a.counts = counts at opened
  cases opened with
  | nil => exact htail.openBrackets_eq_zero
  | group => exact absurd rfl (top _ _)
  | call => exact absurd rfl (top _ _)

/-- The outermost bracket that waits is one that has been passed, and it is not closed. -/
theorem exists_outermost (h : Reaches s limit us a .operator c) (read : c.next = (.ok t, c'))
    {o : Nat} (first : a.pending.reverse.find? Pending.isParen = some (.paren o)) :
    ∃ before opening after, us = before ++ opening :: after ∧ opening.kind = .openParen ∧
      opening.offset = o ∧ openBrackets before = 0 ∧ closing? 0 1 after = none := by
  obtain ⟨qs, base, before, tail, stack, waiting, opened, rfl, part, xs, rfl, hpart, hxs⟩ :=
    (h.recognizes read).agrees
  rw [stack, find?_isParen_reverse fun q hq => (waiting q hq).isParen_eq_false] at first
  obtain ⟨before, opening, after, rfl, opens, hoffset, hbefore, hafter⟩ :=
    opened.exists_outermost first
  obtain ⟨tree, hreads⟩ := (hpart xs hxs).hasTree
  exact ⟨before, opening, after ++ (part ++ xs), by simp, opens, hoffset, hbefore,
    (hafter.append hreads.holds Nat.one_pos).closing?_eq_none⟩

/-- **The bracket that closes a call** ends its span, and the counter holds the number of its
arguments. -/
theorem spansCall (h : Reaches s limit us a .operator c) (read : c.next = (.ok t, c'))
    (kind : t.kind = .closeParen) {o name : Nat} {f : Function} {below : List Pending}
    (top : a.releaseToParen.pending = .paren o :: .call f name :: below) :
    SpansCall s f (a.counts.headD 1) name (t.stop - name) := by
  obtain ⟨base, before, tail, rfl, htail, opened, hbase⟩ :=
    (h.recognizes read).agrees.exists_expression
  rw [← hbase, top] at opened
  obtain ⟨qs, base, counts, count, before, part, name, opening, args, rfl, rfl, rfl, hcounts, rfl,
    -, -, -, hname, known, opens, arguments⟩ := opened.of_call
  -- what has been read since the bracket are the arguments that were counted
  obtain ⟨trees, rfl, hreads⟩ := (arguments tail htail).hasTree
  have hmeets : Cursor.Meets s ((before ++ part) ++ name :: opening :: (args ++ tail)) t := by
    have hmeets := h.meets read
    simpa only [List.append_assoc, List.cons_append] using hmeets
  rw [hcounts]
  exact hmeets.spansCall hname known opens kind (hreads.holds.closing?_eq kind [])

/-- **What a token leads to points at its place**, if it is a fault. -/
theorem exact {f : Fault} (h : Reaches s limit us a e c) (read : c.next = (.ok t, c'))
    (step : Step a t e (.fault f) a') : f.Exact := by
  obtain rfl := h.same
  have hmeets := h.meets read
  have hspans := hmeets.spansToken
  generalize hp : Progress.fault f = progress at step
  cases step with
  | illegal kind =>
    cases hp
    have hlength := Cursor.length_of_illegal read kind
    rw [hlength] at hspans
    exact ⟨_, 1, rfl, rfl, us, t, hspans, kind, rfl, rfl⟩
  | unknownVariable due kind unknown =>
    cases hp
    exact ⟨_, _, rfl, rfl, us, t, hspans, kind, rfl, unknown, rfl⟩
  | unknownFunction due kind unknown =>
    cases hp
    exact ⟨_, _, rfl, rfl, us, t, hspans, kind, rfl, unknown⟩
  | tooDeep kind deep place =>
    cases hp
    obtain ⟨hcovers, hspans⟩ := hmeets.spansToken_singleton (Cursor.toList_of_openParen read kind)
    refine ⟨_, 1, rfl, rfl, hcovers, us, t, hspans, kind, ?_⟩
    rw [openBrackets_append, openBrackets_of_open kind, ← h.depth_eq read]
    exact deep
  | endsBeforeOperand due kind =>
    cases hp
    have hoffset := Cursor.offset_of_next_finish read kind
    rw [h.passes.source_eq] at hoffset
    exact ⟨_, 1, rfl, rfl, hoffset, rfl, us, t, hmeets, kind, h.recalls.operandDue_eq due⟩
  | notAnOperand due sign kind =>
    cases hp
    exact ⟨_, _, rfl, rfl, us, t, hspans, rfl, h.recalls.operandDue_eq due, sign, kind⟩
  | emptyParens kind =>
    cases hp
    obtain ⟨before, opening, rfl, opens, rfl⟩ := h.recalls
    obtain ⟨-, c₁, hbefore, first⟩ := Cursor.Passes.concat_iff.mp h.passes
    obtain ⟨blanks, hblanks, hcovers⟩ := Cursor.covers_parens first opens read kind
    rw [hbefore.source_eq] at hcovers
    exact ⟨_, _, rfl, rfl, blanks, hblanks, hcovers⟩
  | misplacedComma kind top =>
    cases hp
    obtain ⟨hcovers, hspans⟩ := hmeets.spansToken_singleton (Cursor.toList_of_comma read kind)
    exact ⟨_, 1, rfl, rfl, hcovers, us, t, hspans, kind⟩
  | arityMismatch kind top arity differs =>
    cases hp
    refine ⟨_, _, rfl, rfl, ?_, _, _, _, rfl, arity, rfl, rfl, h.spansCall read kind top⟩
    exact fun same => differs (Int.ofNat.inj same).symm
  | unmatchedClose kind top =>
    cases hp
    obtain ⟨hcovers, hspans⟩ := hmeets.spansToken_singleton (Cursor.toList_of_closeParen read kind)
    exact ⟨_, 1, rfl, rfl, hcovers, us, t, hspans, kind, h.openBrackets_eq_zero read top⟩
  | @unclosed o kind first =>
    cases hp
    obtain ⟨before, opening, after, rfl, opens, rfl, hbefore, hafter⟩ := h.exists_outermost read first
    have hmeets' := h.passes.meets
    obtain ⟨hcovers, hspans⟩ := hmeets'.spansToken_singleton (hmeets'.toList_of_openParen opens)
    exact ⟨_, 1, rfl, rfl, hcovers, before, opening, after, t, hspans, opens, hbefore, hmeets, kind,
      hafter⟩
  | missingOperator sign kind =>
    cases hp
    refine ⟨_, _, rfl, rfl, us, t, hspans, rfl, h.recalls, ?_⟩
    revert sign kind
    cases t.kind <;> decide
  | _ => cases hp

end Reaches

end Assembler

/-! ## Whole expressions -/

/-- **Every fault of an assembly points at its place.** -/
theorem exact_of_assemble_error {source : Option String} {maxDepth : Int} {f : Fault}
    (h : assemble source maxDepth = .error f) : f.Exact := by
  cases source with
  | none =>
    cases h
    exact ⟨0, 0, rfl, rfl, rfl, rfl, rfl⟩
  | some s =>
    by_cases hs : s = ""
    · subst hs
      cases h
      exact ⟨0, 0, rfl, rfl, rfl, rfl, rfl⟩
    · rw [assemble_eq_resume hs] at h
      obtain ⟨a, e, c, hrequests, hends⟩ :=
        Assembler.exists_ends (.start s maxDepth) .operand (.atStart s)
      obtain ⟨us, hreaches⟩ := hrequests.exists_reaches
      rw [h] at hends
      cases hends with
      | unreadable read => exact Cursor.exact_of_next_error hreaches.passes read
      | fault read accepted => exact hreaches.exact read (Assembler.step_of_accept accepted)

end Reckoner
