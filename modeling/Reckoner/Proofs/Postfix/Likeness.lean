import Mathlib.Data.List.Forall2
import Reckoner.Proofs.Postfix.Feed

/-! # Texts that are assembled alike

Nothing but the kinds of tokens, what their names and numbers stand for, and where they begin decides
what an assembler does. This file says so of two passes at once: when the tokens of two texts are
alike one by one, the passes stay in step, and they end alike.

* **`Likeness`** — how tokens are compared: which places correspond, and how a text is spelled in the
  other one.
* **`Likeness.Spans`, `Likeness.Faults`, `Likeness.Instructions`** — spans, faults and instructions
  that correspond.
* **`Likeness.Assemblers`** — assemblers that have taken like tokens.
* **`Likeness.accept`** — like tokens have like effects.
* **`Likeness.Nexts`** — two cursors whose next tokens are alike.
* **`Likeness.requests`, `Likeness.ends`** — passes over such cursors ask for their tokens in step, and
  end alike (`Likeness.resume`). -/

namespace Reckoner

/-- A cause in which the text of a token is replaced. -/
def Cause.respell (spell : String → String) : Cause → Cause
  | .illegalCharacter text => .illegalCharacter (spell text)
  | .invalidNumber literal => .invalidNumber (spell literal)
  | .unknownVariable name isFunction => .unknownVariable (spell name) isFunction
  | .unknownFunction name => .unknownFunction (spell name)
  | .notAnOperand found => .notAnOperand (spell found)
  | .missingOperator found => .missingOperator (spell found)
  | cause => cause

/-- Another spelling is of the same kind. -/
@[simp] theorem Cause.kind_respell (spell : String → String) (cause : Cause) :
    (cause.respell spell).kind = cause.kind := by
  cases cause <;> rfl

/-- And it is found at the same stage. -/
@[simp] theorem Cause.category_respell (spell : String → String) (cause : Cause) :
    (cause.respell spell).category = cause.category := by
  cases cause <;> rfl

/-- The same spelling changes nothing. -/
@[simp] theorem Cause.respell_id (cause : Cause) : cause.respell id = cause := by
  cases cause <;> rfl

/-- **How the tokens of two texts are compared**: where they begin, and how they are spelled. Another
spelling has the same length and stands for the same thing. -/
structure Likeness where
  /-- Which places of the texts correspond. -/
  begins : Nat → Nat → Prop
  /-- How a literal of the first text is spelled in the second. -/
  spell : String → String
  length_spell : ∀ x, (spell x).length = x.length
  constant?_spell : ∀ x, constant? (spell x) = constant? x
  function?_spell : ∀ x, function? (spell x) = function? x
  ofNumeral_spell : ∀ x, Binary64.ofNumeral (spell x).toList = Binary64.ofNumeral x.toList

namespace Likeness

/-- Tokens with the **same literals** at corresponding places. -/
def verbatim (begins : Nat → Nat → Prop) : Likeness where
  begins
  spell := id
  length_spell _ := rfl
  constant?_spell _ := rfl
  function?_spell _ := rfl
  ofNumeral_spell _ := rfl

variable (l : Likeness)

/-! ## What corresponds -/

/-- Whether every place corresponds to itself only. -/
def Still : Prop := ∀ i j, l.begins i j → j = i

/-- Spans **correspond** when they begin at corresponding places. They are equally long where places
stay where they are. -/
structure Spans (s s' : Span) : Prop where
  begins : ∃ i j : Nat, s.offset = i ∧ s'.offset = j ∧ l.begins i j
  length : l.Still → s'.length = s.length

/-- Faults correspond when they have the same cause but for its spelling, at corresponding spans. -/
structure Faults (f g : Fault) : Prop where
  cause : g.cause = f.cause.respell l.spell
  span : l.Spans ⟨f.offset, f.length⟩ ⟨g.offset, g.length⟩

/-- Instructions correspond when they are the same but for their spans, which correspond. -/
inductive Instructions : Instruction → Instruction → Prop
  | number {value : Binary64} {s s' : Span} (span : l.Spans s s') :
      Instructions (.number value s) (.number value s')
  | negate {i j : Int} (span : l.Spans ⟨i, 1⟩ ⟨j, 1⟩) : Instructions (.negate i) (.negate j)
  | operation {op : Operator} {i j : Int} (span : l.Spans ⟨i, 1⟩ ⟨j, 1⟩) :
      Instructions (.operation op i) (.operation op j)
  | call {f : Function} {arity : Nat} {s s' : Span} (span : l.Spans s s') :
      Instructions (.call f arity s) (.call f arity s')
  | factorial {i j : Int} (span : l.Spans ⟨i, 1⟩ ⟨j, 1⟩) :
      Instructions (.factorial i) (.factorial j)

/-- Tokens correspond when they are of the same kind, spelled alike, at corresponding places. -/
structure Tokens (t u : Token) : Prop where
  kind : u.kind = t.kind
  literal : u.literal = l.spell t.literal
  begins : l.begins t.offset u.offset

/-- Waiting entries correspond when they are the same but for their places, which correspond. -/
inductive Entries : Pending → Pending → Prop
  | paren {i j : Nat} (begins : l.begins i j) : Entries (.paren i) (.paren j)
  | call {f : Function} {i j : Nat} (begins : l.begins i j) : Entries (.call f i) (.call f j)
  | negation {i j : Nat} (begins : l.begins i j) : Entries (.negation i) (.negation j)
  | operation {op : Operator} {i j : Nat} (begins : l.begins i j) :
      Entries (.operation op i) (.operation op j)

/-- Expectations correspond when they are the same but for their places, which correspond. -/
inductive Expectations : Expectation → Expectation → Prop
  | operand : Expectations .operand .operand
  | operator : Expectations .operator .operator
  | bracket {f : Function} {i j : Nat} (begins : l.begins i j) :
      Expectations (.bracket f i) (.bracket f j)
  | firstOperand {f : Option Function} {i j : Nat} (begins : l.begins i j) :
      Expectations (.firstOperand f i) (.firstOperand f j)

/-- **Assemblers correspond** when they hold corresponding entries and instructions, with the same
counts, under the same limit. They may belong to different texts. -/
structure Assemblers (a b : Assembler) : Prop where
  maxDepth : b.maxDepth = a.maxDepth
  pending : List.Forall₂ l.Entries a.pending b.pending
  emitted : List.Forall₂ l.Instructions a.emitted b.emitted
  counts : b.counts = a.counts
  depth : b.depth = a.depth

/-- Two effects of tokens correspond: both lead on, both complete a program, or both are faults. -/
inductive Outcomes : Progress × Assembler → Progress × Assembler → Prop
  | «continue» {e e' : Expectation} {a b : Assembler} (expectation : l.Expectations e e')
      (assembler : l.Assemblers a b) : Outcomes (.continue e, a) (.continue e', b)
  | complete {a b : Assembler} (assembler : l.Assemblers a b) : Outcomes (.complete, a) (.complete, b)
  | fault {f g : Fault} {a b : Assembler} (fault : l.Faults f g) :
      Outcomes (.fault f, a) (.fault g, b)

variable {l}

/-- Spans of one length are alike when they begin alike. -/
theorem Spans.of_begins {i j : Nat} (h : l.begins i j) (n : Int) : l.Spans ⟨i, n⟩ ⟨j, n⟩ :=
  ⟨⟨i, j, rfl, rfl, h⟩, fun _ => rfl⟩

/-- Where places stay where they are, corresponding spans are the same. -/
theorem Spans.eq (still : l.Still) {s s' : Span} (h : l.Spans s s') :
    s' = s := by
  obtain ⟨⟨i, j, hi, hj, hbegins⟩, hlength⟩ := h
  obtain ⟨offset, length⟩ := s
  obtain ⟨offset', length'⟩ := s'
  obtain rfl : offset = i := hi
  obtain rfl : offset' = j := hj
  rw [still i j hbegins, show length' = length from hlength still]

/-- Where places stay where they are, corresponding instructions are the same. -/
theorem Instructions.eq (still : l.Still) {i j : Instruction} (h : l.Instructions i j) : j = i := by
  cases h with
  | number span => rw [span.eq still]
  | negate span => rw [(Span.mk.inj (span.eq still)).1]
  | operation span => rw [(Span.mk.inj (span.eq still)).1]
  | call span => rw [span.eq still]
  | factorial span => rw [(Span.mk.inj (span.eq still)).1]

/-- Where no place is moved, instructions that are alike are the same. -/
theorem instructions_eq (still : l.Still) {is js : List Instruction}
    (h : List.Forall₂ l.Instructions is js) : js = is := by
  induction h with
  | nil => rfl
  | cons first rest ih => rw [first.eq still, ih]

/-- What reaches from one place to a distance after another. -/
theorem Spans.of_stop {i j p q : Nat} (first : l.begins i j) (last : l.begins p q) (n : Nat) :
    l.Spans ⟨i, ((p + n - i : Nat) : Int)⟩ ⟨j, ((q + n - j : Nat) : Int)⟩ := by
  refine ⟨⟨i, j, rfl, rfl, first⟩, fun still => ?_⟩
  rw [still i j first, still p q last]

/-- Tokens that are alike are as long as each other. -/
theorem Tokens.length {t u : Token} (h : l.Tokens t u) : u.literal.length = t.literal.length := by
  rw [h.literal, l.length_spell]

/-- A span that begins earlier and ends with a token. -/
theorem Tokens.spans_stop {t u : Token} (h : l.Tokens t u) {i j : Nat} (first : l.begins i j) :
    l.Spans ⟨i, ((t.stop - i : Nat) : Int)⟩ ⟨j, ((u.stop - j : Nat) : Int)⟩ := by
  rw [Token.stop, Token.stop, h.length]
  exact .of_stop first h.begins t.literal.length

/-- And their spans are alike. -/
theorem Tokens.spans {t u : Token} (h : l.Tokens t u) :
    l.Spans ⟨t.offset, t.literal.length⟩ ⟨u.offset, u.literal.length⟩ := by
  rw [h.length]
  exact .of_begins h.begins _

/-! ## Assemblers in step -/

/-- Corresponding entries come out as corresponding instructions, as long as the same ones are
ready. -/
theorem release_alike (ready : Pending → Bool) (hready : ∀ p q, l.Entries p q → ready q = ready p)
    {ps qs : List Pending} (pending : List.Forall₂ l.Entries ps qs) {is js : List Instruction}
    (emitted : List.Forall₂ l.Instructions is js) :
    List.Forall₂ l.Entries (release ready ps is).1 (release ready qs js).1 ∧
      List.Forall₂ l.Instructions (release ready ps is).2 (release ready qs js).2 := by
  induction pending generalizing is js with
  | nil => exact ⟨.nil, emitted⟩
  | @cons p q ps qs first rest ih =>
    have hsame := hready p q first
    cases first with
    | paren begins => exact ⟨.cons (.paren begins) rest, emitted⟩
    | call begins => exact ⟨.cons (.call begins) rest, emitted⟩
    | negation begins =>
      rw [release, release, hsame]
      split
      · exact ih (.cons (.negate (.of_begins begins 1)) emitted)
      · exact ⟨.cons (.negation begins) rest, emitted⟩
    | operation begins =>
      rw [release, release, hsame]
      split
      · exact ih (.cons (.operation (.of_begins begins 1)) emitted)
      · exact ⟨.cons (.operation begins) rest, emitted⟩

/-- Both stacks have an open bracket at corresponding places, or none has. -/
theorem find?_isParen_alike {ps qs : List Pending} (h : List.Forall₂ l.Entries ps qs) :
    (∃ i j, ps.find? Pending.isParen = some (.paren i) ∧ qs.find? Pending.isParen = some (.paren j) ∧
        l.begins i j) ∨
      ps.find? Pending.isParen = none ∧ qs.find? Pending.isParen = none := by
  induction h with
  | nil => exact .inr ⟨rfl, rfl⟩
  | cons first rest ih =>
    cases first with
    | paren begins => exact .inl ⟨_, _, rfl, rfl, begins⟩
    | call begins => exact ih
    | negation begins => exact ih
    | operation begins => exact ih

namespace Assemblers

variable {a b : Assembler} {t u : Token}

/-- After instructions that are alike. -/
theorem emit (h : l.Assemblers a b) {i j : Instruction} (alike : l.Instructions i j) :
    l.Assemblers (a.emit i) (b.emit j) :=
  { h with emitted := .cons alike h.emitted }

/-- After releasing operators. -/
theorem releaseToParen (h : l.Assemblers a b) : l.Assemblers a.releaseToParen b.releaseToParen := by
  obtain ⟨hpending, hemitted⟩ :=
    release_alike (fun _ => true) (fun _ _ _ => rfl) h.pending h.emitted
  exact { h with pending := hpending, emitted := hemitted }

/-- After an operator. -/
theorem suspend (h : l.Assemblers a b) (op : Operator) {i j : Nat} (begins : l.begins i j) :
    l.Assemblers (a.suspend op i) (b.suspend op j) := by
  have hready : ∀ p q, l.Entries p q →
      q.bindsLeftOf op.precedence = p.bindsLeftOf op.precedence := by
    intro p q alike
    cases alike <;> rfl
  obtain ⟨hpending, hemitted⟩ := release_alike _ hready h.pending h.emitted
  exact { h with pending := .cons (.operation begins) hpending, emitted := hemitted }

/-- The same cause at corresponding spans is a corresponding fault. -/
theorem faultAt {cause cause' : Cause} {i j m n : Nat} (same : cause' = cause.respell l.spell)
    (span : l.Spans ⟨i, m⟩ ⟨j, n⟩) : l.Outcomes (a.faultAt cause i m, a) (b.faultAt cause' j n, b) :=
  .fault ⟨same, span⟩

/-- After a bracket. -/
theorem openParen (h : l.Assemblers a b) {i j : Nat} (begins : l.begins i j) :
    l.Outcomes (a.openParen none i) (b.openParen none j) := by
  rw [Assembler.openParen, Assembler.openParen, h.maxDepth, h.depth]
  split
  · exact faultAt rfl (.of_begins begins 1)
  · exact .continue (.firstOperand begins)
      { h with maxDepth := rfl, pending := .cons (.paren begins) h.pending, depth := rfl }

/-- After the bracket of a call. -/
theorem openParen_call (h : l.Assemblers a b) (f : Function) {i j p q : Nat}
    (name : l.begins p q) (begins : l.begins i j) :
    l.Outcomes (a.openParen (some (f, p)) i) (b.openParen (some (f, q)) j) := by
  rw [Assembler.openParen, Assembler.openParen, h.maxDepth, h.depth]
  split
  · exact faultAt rfl (.of_begins begins 1)
  · exact .continue (.firstOperand begins)
      { h with
        maxDepth := rfl
        pending := .cons (.paren begins) (.cons (.call name) h.pending)
        counts := congrArg (1 :: ·) h.counts
        depth := rfl }

/-- Where an operand is due. -/
theorem acceptOperand (h : l.Assemblers a b) (token : l.Tokens t u) :
    l.Outcomes (a.acceptOperand t) (b.acceptOperand u) := by
  rw [Assembler.acceptOperand, Assembler.acceptOperand, token.kind]
  split
  · next negates hsign =>
    -- a sign waits if it negates
    cases negates with
    | false => exact .continue .operand h
    | true =>
      exact .continue .operand { h with pending := .cons (.negation token.begins) h.pending }
  · next hsign =>
    split
    · rw [token.literal, l.ofNumeral_spell, ← token.literal]
      exact .continue .operator (h.emit (.number token.spans))
    · rw [token.literal, l.constant?_spell, l.function?_spell, ← token.literal]
      split
      · exact .continue .operator (h.emit (.number token.spans))
      · exact faultAt (by rw [token.literal]; rfl) token.spans
    · rw [token.literal, l.function?_spell, ← token.literal]
      split
      · exact .continue (.bracket token.begins) h
      · exact faultAt (by rw [token.literal]; rfl) token.spans
    · exact h.openParen token.begins
    · exact faultAt rfl (.of_begins token.begins 1)
    · exact faultAt (by rw [token.literal]; rfl) token.spans

/-- At a comma. -/
theorem acceptComma (h : l.Assemblers a b) {i j : Nat} (begins : l.begins i j) :
    l.Outcomes (a.acceptComma i) (b.acceptComma j) := by
  have hrelease := h.releaseToParen
  simp only [Assembler.acceptComma]
  generalize a.releaseToParen = a', b.releaseToParen = b' at hrelease
  obtain ⟨_, _, _, _, _, _⟩ := a'
  obtain ⟨_, _, _, _, _, _⟩ := b'
  obtain ⟨rfl, hpending, hemitted, rfl, rfl⟩ := hrelease
  -- a comma ends an argument only right above the bracket of a call
  cases hpending with
  | nil => exact faultAt rfl (.of_begins begins 1)
  | cons first rest =>
    cases first with
    | paren bracket =>
      cases rest with
      | nil => exact faultAt rfl (.of_begins begins 1)
      | cons second rest =>
        cases second with
        | call name =>
          exact .continue .operand
            ⟨rfl, .cons (.paren bracket) (.cons (.call name) rest), hemitted, rfl, rfl⟩
        | _ => exact faultAt rfl (.of_begins begins 1)
    | _ => exact faultAt rfl (.of_begins begins 1)

/-- At the end of a call. -/
theorem closeCall (h : l.Assemblers a b) (f : Function) {i j : Nat} (name : l.begins i j)
    (token : l.Tokens t u) : l.Outcomes (a.closeCall f i t.stop) (b.closeCall f j u.stop) := by
  have hspan := token.spans_stop name
  have htail : l.Assemblers { a with counts := a.counts.tail } { b with counts := b.counts.tail } :=
    { h with counts := congrArg List.tail h.counts }
  rw [Assembler.closeCall, Assembler.closeCall, h.counts]
  rw [h.counts] at htail
  split
  · exact .continue .operator (htail.emit (.call hspan))
  · split
    · exact .continue .operator (htail.emit (.call hspan))
    · exact faultAt rfl hspan

/-- At a closing bracket. -/
theorem acceptClose (h : l.Assemblers a b) (token : l.Tokens t u) :
    l.Outcomes (a.acceptClose t) (b.acceptClose u) := by
  have hrelease := h.releaseToParen
  simp only [Assembler.acceptClose]
  generalize a.releaseToParen = a', b.releaseToParen = b' at hrelease
  obtain ⟨_, _, _, _, _, _⟩ := a'
  obtain ⟨_, _, _, _, _, _⟩ := b'
  obtain ⟨rfl, hpending, hemitted, rfl, rfl⟩ := hrelease
  cases hpending with
  | nil => exact faultAt rfl (.of_begins token.begins 1)
  | cons first rest =>
    cases first with
    | paren bracket =>
      cases rest with
      | nil => exact .continue .operator ⟨rfl, .nil, hemitted, rfl, rfl⟩
      | cons second rest =>
        cases second with
        | call name =>
          refine closeCall ?_ _ name token
          exact ⟨rfl, rest, hemitted, rfl, rfl⟩
        | paren other => exact .continue .operator ⟨rfl, .cons (.paren other) rest, hemitted, rfl, rfl⟩
        | negation sign =>
          exact .continue .operator ⟨rfl, .cons (.negation sign) rest, hemitted, rfl, rfl⟩
        | operation sign =>
          exact .continue .operator ⟨rfl, .cons (.operation sign) rest, hemitted, rfl, rfl⟩
    | _ => exact faultAt rfl (.of_begins token.begins 1)

/-- At the end. -/
theorem acceptFinish (h : l.Assemblers a b) : l.Outcomes a.acceptFinish b.acceptFinish := by
  rw [Assembler.acceptFinish, Assembler.acceptFinish]
  have hreverse := List.forall₂_reverse_iff.mpr h.pending
  obtain ⟨i, j, ha, hb, begins⟩ | ⟨ha, hb⟩ := find?_isParen_alike hreverse
  · rw [ha, hb]
    exact faultAt rfl (.of_begins begins 1)
  · rw [ha, hb]
    exact .complete h.releaseToParen

/-- Where an operator is due. -/
theorem acceptOperator (h : l.Assemblers a b) (token : l.Tokens t u) :
    l.Outcomes (a.acceptOperator t) (b.acceptOperator u) := by
  rw [Assembler.acceptOperator, Assembler.acceptOperator, token.kind]
  split
  · exact .continue .operand (h.suspend _ token.begins)
  · split
    · exact .continue .operator (h.emit (.factorial (.of_begins token.begins 1)))
    · exact h.acceptComma token.begins
    · exact h.acceptClose token
    · exact h.acceptFinish
    · exact faultAt (by rw [token.literal]; rfl) token.spans

end Assemblers

/-- **Like tokens have like effects.** -/
theorem accept {a b : Assembler} {e e' : Expectation} {t u : Token} (h : l.Assemblers a b)
    (expectation : l.Expectations e e') (token : l.Tokens t u) :
    l.Outcomes (a.accept e t) (b.accept e' u) := by
  unfold Assembler.accept
  rw [token.kind]
  split
  · exact Assemblers.faultAt (by rw [token.literal]; rfl) (.of_begins token.begins 1)
  · cases expectation with
    | operand => exact h.acceptOperand token
    | operator => exact h.acceptOperator token
    | bracket name =>
      dsimp only
      split
      · exact h.openParen_call _ name token.begins
      · exact h.acceptOperand token
    | firstOperand bracket =>
      dsimp only
      split
      · exact Assemblers.faultAt rfl (token.spans_stop bracket)
      · exact h.acceptOperand token

/-! ## Passes in step -/

variable (l) in
/-- The **next tokens** of two cursors are alike, and the cursors after them are related unless it was
the end token; or faults that correspond stand in their place. -/
inductive Nexts (related : Cursor → Cursor → Prop) :
    Except Fault Token × Cursor → Except Fault Token × Cursor → Prop
  | token {t u : Token} {c d : Cursor} (token : l.Tokens t u)
      (rest : t.kind ≠ .finish → related c d) : Nexts related (.ok t, c) (.ok u, d)
  | fault {f g : Fault} {c d : Cursor} (fault : l.Faults f g) : Nexts related (.error f, c) (.error g, d)

variable (l) in
/-- Two results correspond: both are programs with corresponding instructions, or both are faults that
correspond. -/
inductive Results : Except Fault Program → Except Fault Program → Prop
  | program {p q : Program} (instructions : List.Forall₂ l.Instructions p.instructions q.instructions) :
      Results (.ok p) (.ok q)
  | fault {f g : Fault} (fault : l.Faults f g) : Results (.error f) (.error g)

variable {related : Cursor → Cursor → Prop} {a b : Assembler} {e e' : Expectation} {c d : Cursor}

/-- **The requests of one pass are matched by the other**, when related cursors have like tokens up to
the end token. -/
theorem requests (follows : ∀ {c d : Cursor}, related c d →
      (∀ t c', c.next = (.ok t, c') → t.kind ≠ .finish) → l.Nexts related c.next d.next)
    (assembler : l.Assemblers a b) (expectation : l.Expectations e e') (cursor : related c d)
    {a₁ : Assembler} {e₁ : Expectation} {c₁ : Cursor} (h : Assembler.Requests a e c a₁ e₁ c₁) :
    ∃ b₁ e₁' d₁, Assembler.Requests b e' d b₁ e₁' d₁ ∧ l.Assemblers a₁ b₁ ∧
      l.Expectations e₁ e₁' ∧ related c₁ d₁ := by
  induction h with
  | first => exact ⟨b, e', d, .first, assembler, expectation, cursor⟩
  | @next a₁ a₂ e₁ e₂ c₁ c₂ t before read accepted ih =>
    obtain ⟨b₁, e₁', d₁, hrequests, hassembler, hexpectation, hcursor⟩ := ih
    have inner : t.kind ≠ .finish := fun last => Assembler.accept_finish last (by rw [accepted])
    have hnexts : l.Nexts related c₁.next d₁.next := by
      refine follows hcursor fun t' c' read' => ?_
      rw [read] at read'
      cases read'
      exact inner
    rw [read] at hnexts
    cases hread : d₁.next with
    | mk result d₂ =>
      rw [hread] at hnexts
      cases hnexts with
      | token token rest =>
        have houtcome := accept hassembler hexpectation token
        rw [accepted] at houtcome
        cases haccepted : b₁.accept e₁' _ with
        | mk progress b₂ =>
          rw [haccepted] at houtcome
          cases houtcome with
          | «continue» expectation assembler =>
            exact ⟨_, _, _, hrequests.next hread haccepted, assembler, expectation, rest inner⟩

/-- A pass that ends is matched by one that ends alike, when the last tokens that they request are
alike. -/
theorem ends (assembler : l.Assemblers a b) (expectation : l.Expectations e e')
    (nexts : l.Nexts related c.next d.next) {result : Except Fault Program} {a' : Assembler}
    {c' : Cursor} (h : Assembler.Ends a e c result a' c') :
    l.Results result (b.resume e' d).1 := by
  cases hread : d.next with
  | mk other d' =>
    rw [hread] at nexts
    cases h with
    | unreadable read =>
      rw [read] at nexts
      cases nexts with
      | fault fault =>
        rw [Assembler.resume_of_error hread]
        exact .fault fault
    | fault read accepted =>
      rw [read] at nexts
      cases nexts with
      | @token _ u _ _ token rest =>
        have houtcome := accept assembler expectation token
        rw [accepted] at houtcome
        cases haccepted : b.accept e' u with
        | mk progress b' =>
          rw [haccepted] at houtcome
          cases houtcome with
          | fault fault =>
            rw [Assembler.resume_of_fault hread haccepted]
            exact .fault fault
    | complete read accepted =>
      rw [read] at nexts
      cases nexts with
      | @token _ u _ _ token rest =>
        have houtcome := accept assembler expectation token
        rw [accepted] at houtcome
        cases haccepted : b.accept e' u with
        | mk progress b' =>
          rw [haccepted] at houtcome
          cases houtcome with
          | complete assembler =>
            rw [Assembler.resume_of_complete hread haccepted]
            exact .program (List.forall₂_reverse_iff.mpr assembler.emitted)

/-- **Passes over related cursors end alike**, when related cursors have like tokens. -/
theorem resume (follows : ∀ {c d : Cursor}, related c d → l.Nexts related c.next d.next)
    (assembler : l.Assemblers a b) (expectation : l.Expectations e e') (cursor : related c d) :
    l.Results (a.resume e c).1 (b.resume e' d).1 := by
  obtain ⟨a₁, e₁, c₁, hrequests, hends⟩ := Assembler.exists_ends a e c
  obtain ⟨b₁, e₁', d₁, hrequests', hassembler, hexpectation, hcursor⟩ :=
    requests (fun h _ => follows h) assembler expectation cursor hrequests
  rw [hrequests'.resume_eq]
  exact ends hassembler hexpectation (follows hcursor) hends

/-- Assemblers correspond before the first token. -/
theorem assemblers_start (source source' : String) (maxDepth : Int) :
    l.Assemblers (.start source maxDepth) (.start source' maxDepth) :=
  ⟨rfl, .nil, .nil, rfl, rfl⟩

end Likeness

end Reckoner
