import Reckoner.Proofs.Expression.Brackets
import Reckoner.Proofs.Postfix.Spans

/-! # Faults of brackets and commas

An assembler finds out from the top of its stack whether a bracket is open and whether it belongs to a call.
That agrees with the partners of brackets: what waits on top of the stack, once operators and signs have
come out, is the innermost open bracket.

* **`Assembler.Agrees.balanced`, `Assembler.Agrees.innermostOpen_of_group`,
  `Assembler.Agrees.innermostOpen_of_call`** — the top of the stack and the innermost open bracket.
* **`FirstSurplus`, `FirstUnclosed`, `CommaOutsideCall`** — the places of the three faults, told from the
  tokens alone.
* **`assemble_brackets`** — the faults are found at these places, and nowhere else. -/

namespace Reckoner

/-! ## No name before the bracket of a group -/

/-- Where an operand is due, no name stands before it. -/
theorem Awaits.not_endsWithName {part : List Token} (h : Awaits part) : ¬ EndsWithName part := by
  have hone : Derives .operand [⟨.number, "0", 0⟩] := .factor (.primary (.number rfl))
  exact (h _ hone).namesOpen.not_endsWithName (by decide)

/-- Nor at the beginning of an argument. -/
theorem not_endsWithName_of_arguments {count : Nat} {args : List Token}
    (h : ∀ xs, Derives .expression xs → Derives (.arguments count) (args ++ xs)) :
    ¬ EndsWithName args := by
  have hone : Derives .expression [⟨.number, "0", 0⟩] := .operand (.factor (.primary (.number rfl)))
  exact (h _ hone).namesOpen.not_endsWithName (by decide)

/-- The tokens up to an open bracket, or to a comma between its arguments, do not end with a name. -/
theorem Opened.not_endsWithName {base : List Pending} {counts : List Nat} {before : List Token}
    (h : Opened base counts before) : ¬ EndsWithName before := by
  cases h with
  | nil =>
    rintro ⟨name, hlast, -⟩
    cases hlast
  | @group _ _ _ before part opening _ _ _ opens =>
    rw [← List.append_assoc, endsWithName_concat, opens]
    decide
  | @call _ _ _ before part args name opening _ _ _ _ _ _ _ opens arguments =>
    intro hends
    have hsplit : before ++ (part ++ name :: opening :: args) =
        (before ++ part ++ [name] ++ [opening]) ++ args := by simp
    rw [hsplit] at hends
    rcases hends.of_append with hargs | hopening
    · exact not_endsWithName_of_arguments arguments hargs
    · rw [endsWithName_concat, opens] at hopening
      cases hopening

/-! ## The top of the stack -/

/-- Each token of a text is met after those before it. -/
theorem Cursor.Meets.of_tokenize {s : String} {before after : List Token} {t : Token}
    (h : tokenize (some s) = .ok (before ++ t :: after)) : Cursor.Meets s before t := by
  obtain ⟨_, c, hs, -, hyields⟩ := tokenize_eq_ok_iff.mp h
  cases hs
  exact hyields.exists_next_of_append

namespace Assembler

/-- An assembler that has accepted the tokens before another one **agrees** with them. -/
theorem agrees_of_feed {s : String} {limit : Int} {before : List Token} {a : Assembler}
    {e : Expectation} {t : Token} (feeds : (start s limit).feed .operand before = (.continue e, a))
    (met : Cursor.Meets s before t) : a.Agrees before e := by
  obtain ⟨c, c', passes, read⟩ := met
  have calls : CallsOpen ([] ++ (before ++ [t])) := passes.callsOpen read
  exact ((recognizes_start s limit).feed calls feeds).agrees

/-- Accepted tokens lead to a request of the token after them. -/
theorem Requests.of_feed {a a' : Assembler} {e e' : Expectation} {c c' : Cursor} {us : List Token}
    (passes : c.Passes us c') (feeds : a.feed e us = (.continue e', a')) :
    Requests a e c a' e' c' := by
  induction passes generalizing a e with
  | nil =>
    cases feeds
    exact .first
  | cons read inner rest ih =>
    obtain ⟨e₁, a₁, accepted, hrest⟩ := accept_of_feed_continue feeds
    exact (ih hrest).of_next read accepted

/-- Feeding that leads on can be interrupted anywhere. -/
theorem exists_of_feed_append {a a' : Assembler} {e e' : Expectation} {ts us : List Token}
    (h : a.feed e (ts ++ us) = (.continue e', a')) : ∃ e₁ a₁, a.feed e ts = (.continue e₁, a₁) := by
  induction ts generalizing a e with
  | nil => exact ⟨e, a, rfl⟩
  | cons t ts ih =>
    obtain ⟨e₁, a₁, hacc, hrest⟩ := accept_of_feed_continue h
    rw [feed_cons hacc]
    exact ih hrest

namespace Agrees

variable {a : Assembler} {us : List Token}

/-- **When no bracket is on top**, the tokens are balanced. -/
theorem balanced (h : a.Agrees us .operator)
    (top : ∀ o below, a.releaseToParen.pending ≠ .paren o :: below) : Balanced us := by
  obtain ⟨base, before, tail, rfl, htail, opened, hbase⟩ := h.exists_expression
  rw [hbase] at top
  generalize a.counts = counts at opened
  cases opened with
  | nil => exact htail.balanced
  | group => exact absurd rfl (top _ _)
  | call => exact absurd rfl (top _ _)

/-- **When a bracket of no call is on top**, no name stands before the innermost open bracket. -/
theorem innermostOpen_of_group (h : a.Agrees us .operator) {o : Nat} {below : List Pending}
    (top : a.releaseToParen.pending = .paren o :: below)
    (plain : ∀ f name rest, below ≠ .call f name :: rest) :
    ∃ before opening, InnermostOpen us before opening ∧ ¬ EndsWithName before := by
  obtain ⟨base, before, tail, rfl, htail, opened, hbase⟩ := h.exists_expression
  rw [← hbase, top] at opened
  obtain ⟨qs, base, before, part, opening, rfl, rfl, opened, waiting, awaits, opens⟩ :=
    opened.of_group plain
  refine ⟨before ++ part, opening, ⟨opens, tail, by simp, htail.balanced⟩, ?_⟩
  exact fun hends => hends.of_append.elim awaits.not_endsWithName opened.not_endsWithName

/-- **When the bracket of a call is on top**, a name stands before the innermost open bracket. -/
theorem innermostOpen_of_call (h : a.Agrees us .operator) {o name : Nat} {f : Function}
    {below : List Pending} (top : a.releaseToParen.pending = .paren o :: .call f name :: below) :
    ∃ before opening, InnermostOpen us before opening ∧ EndsWithName before := by
  obtain ⟨base, before, tail, rfl, htail, opened, hbase⟩ := h.exists_expression
  rw [← hbase, top] at opened
  obtain ⟨qs, base, counts, count, before, part, name, opening, args, rfl, rfl, rfl, -, rfl,
    -, -, -, kind, -, opens, arguments⟩ := opened.of_call
  refine ⟨before ++ part ++ [name], opening, ⟨opens, args ++ tail, by simp, ?_⟩,
    (endsWithName_concat _).mpr kind⟩
  exact (arguments tail htail).balanced

end Agrees

/-! ## What a bracket or a comma leads to -/

section Handlers

variable {a : Assembler} {t : Token}

/-- A closing bracket is refused when no bracket is on top. -/
theorem accept_unmatchedClose (kind : t.kind = .closeParen)
    (top : ∀ o below, a.releaseToParen.pending ≠ .paren o :: below) :
    a.accept .operator t = (a.faultAt .unmatchedClose t.offset 1, a.releaseToParen) := by
  have hop : TokenKind.closeParen.operator? = none := rfl
  simp only [accept, acceptOperator, kind, hop, acceptClose, reduceCtorEq, if_false]
  split
  · next htop => exact absurd htop (top _ _)
  · next htop => exact absurd htop (top _ _)
  · rfl

/-- A comma is refused when no bracket of a call is on top. -/
theorem accept_misplacedComma (kind : t.kind = .comma)
    (top : ∀ o name f below, a.releaseToParen.pending ≠ .paren o :: .call f name :: below) :
    a.accept .operator t = (a.faultAt .misplacedComma t.offset 1, a.releaseToParen) := by
  have hop : TokenKind.comma.operator? = none := rfl
  simp only [accept, acceptOperator, kind, hop, acceptComma, reduceCtorEq, if_false]
  split
  · next htop => exact absurd htop (top _ _ _ _)
  · rfl

end Handlers

/-- A text in which tokens are passed has characters. -/
theorem ne_empty_of_passes {s : String} {us : List Token} {c : Cursor}
    (passes : (Cursor.atStart s).Passes us c) (read : us ≠ []) : s ≠ "" := by
  rintro rfl
  cases passes with
  | nil => exact read rfl
  | cons first inner rest =>
    obtain ⟨last, _, hlast, kind⟩ := Cursor.next_of_rest_nil (c := .atStart "") rfl
    rw [first] at hlast
    cases hlast
    exact inner kind

/-- A fault that a token leads to ends the pass. -/
theorem assemble_eq_error {s : String} {limit : Int} {before : List Token} {a a' : Assembler}
    {t : Token} {cause : Cause} {offset length : Nat}
    (feeds : (start s limit).feed .operand before = (.continue .operator, a))
    (met : Cursor.Meets s before t)
    (accepted : a.accept .operator t = (a.faultAt cause offset length, a')) :
    assemble (some s) limit = .error ⟨cause, s, offset, length⟩ := by
  obtain ⟨c, c', passes, read⟩ := met
  have hread : before ≠ [] := by
    -- before the first token no operator is expected
    rintro rfl
    cases feeds
  have requests := Requests.of_feed passes feeds
  have same : a.source = s := requests.source_eq.1
  rw [assemble_eq_resume (ne_empty_of_passes passes hread), requests.resume_eq,
    resume_of_fault read accepted, same]

/-- **Every fault that is not lexical** is what some token leads to. -/
theorem exists_step_of_assemble_error {s : String} {limit : Int} {f : Fault}
    (h : assemble (some s) limit = .error f) (other : f.category ≠ .lexical) :
    ∃ us a e c t c' a', Reaches s limit us a e c ∧ c.next = (.ok t, c') ∧
      Step a t e (.fault f) a' := by
  by_cases hs : s = ""
  · subst hs
    cases h
    exact absurd rfl other
  · rw [assemble_eq_resume hs] at h
    obtain ⟨a, e, c, hrequests, hends⟩ := exists_ends (.start s limit) .operand (.atStart s)
    obtain ⟨us, hreaches⟩ := hrequests.exists_reaches
    rw [h] at hends
    cases hends with
    | unreadable read => exact absurd (Cursor.category_of_next_error read) other
    | fault read accepted => exact ⟨us, a, e, c, _, _, _, hreaches, read, step_of_accept accepted⟩

end Assembler

/-! ## The places of the faults -/

/-- The place **of the first closing bracket that is too many**: nothing opened it, and the tokens before it
are balanced. -/
inductive FirstSurplus (s : String) : Int → Prop
  | intro {before : List Token} {t : Token} (met : Cursor.Meets s before t)
      (closes : t.kind = .closeParen) (unopened : ¬ WasOpened before t) (balanced : Balanced before)
      (earlier : EachOpened before) : FirstSurplus s t.offset

/-- The place **of the first opening bracket that is not closed**, when every closing bracket was opened. -/
inductive FirstUnclosed (s : String) : Int → Prop
  | intro {before after : List Token} {t last : Token}
      (whole : tokenize (some s) = .ok (before ++ t :: after ++ [last])) (ends : last.kind = .finish)
      (opened : EachOpened (before ++ t :: after)) (opens : t.kind = .openParen)
      (unclosed : ¬ IsClosed t after)
      (earlier : ∀ us opening inside, before = us ++ opening :: inside → opening.kind = .openParen →
        IsClosed opening (inside ++ t :: after)) : FirstUnclosed s t.offset

/-- The place **of a comma outside of calls**: no bracket is open there, or the innermost one does not stand
directly after a name. -/
inductive CommaOutsideCall (s : String) : Int → Prop
  | intro {before : List Token} {t : Token} (met : Cursor.Meets s before t) (kind : t.kind = .comma)
      (outside : ∀ us opening, InnermostOpen before us opening → ¬ EndsWithName us) :
      CommaOutsideCall s t.offset

/-- A fault of brackets or commas **is in its place**. -/
structure Fault.FitsBrackets (s : String) (f : Fault) : Prop where
  surplus : f.kind = .unmatchedCloseParen → FirstSurplus s f.offset
  unclosed : f.kind = .unclosedParen → FirstUnclosed s f.offset
  comma : f.kind = .unexpectedToken → CommaOutsideCall s f.offset

/-- Lexical faults are none of them. -/
theorem Fault.fitsBrackets_of_lexical {s : String} {f : Fault} (h : f.category = .lexical) :
    f.FitsBrackets s := by
  obtain ⟨cause, source, offset, length⟩ := f
  cases cause <;> first | (cases h; done) | exact ⟨nofun, nofun, nofun⟩

namespace Assembler

variable {s : String} {limit : Int} {us : List Token} {a a' : Assembler} {e : Expectation} {c c' : Cursor}
  {t : Token} {f : Fault}

namespace Reaches

/-- Nowhere in what has been passed do more brackets close than open. -/
theorem nonneg (h : Reaches s limit us a e c) (read : c.next = (.ok t, c')) {before : List Token}
    (hb : before <+: us) : 0 ≤ openBrackets before := by
  obtain ⟨after, rfl⟩ := hb
  have calls : CallsOpen ([] ++ (before ++ (after ++ [t]))) := by
    simpa only [List.nil_append, List.append_assoc] using h.passes.callsOpen read
  obtain ⟨e₁, a₁, feeds⟩ := exists_of_feed_append h.feeds
  have agrees := ((recognizes_start s limit).feed calls feeds).agrees
  rw [List.nil_append] at agrees
  rw [agrees.openBrackets_eq]
  exact Int.natCast_nonneg _

/-- A closing bracket without an opening one is the first surplus one. -/
theorem firstSurplus (h : Reaches s limit us a .operator c) (read : c.next = (.ok t, c'))
    (kind : t.kind = .closeParen) (top : ∀ o below, a.releaseToParen.pending ≠ .paren o :: below) :
    FirstSurplus s t.offset := by
  have balanced := (h.recognizes read).agrees.balanced top
  exact .intro (h.meets read) kind balanced.not_wasOpened balanced (.of_nonneg balanced.nonneg)

/-- At the end, the outermost open bracket is the first that is not closed. -/
theorem firstUnclosed (h : Reaches s limit us a .operator c) (read : c.next = (.ok t, c'))
    (kind : t.kind = .finish) {o : Nat}
    (first : a.pending.reverse.find? Pending.isParen = some (.paren o)) : FirstUnclosed s o := by
  obtain ⟨before, opening, after, rfl, opens, rfl, hbefore, hafter⟩ := h.exists_outermost read first
  have hnonneg : ∀ us, us <+: before ++ opening :: after → 0 ≤ openBrackets us := fun us hus =>
    h.nonneg read hus
  have nonempty := ne_empty_of_passes h.passes
    (List.append_ne_nil_of_right_ne_nil before (List.cons_ne_nil opening after))
  have balanced : Balanced before :=
    ⟨hbefore, fun us hus => hnonneg us (hus.trans (List.prefix_append before _))⟩
  have whole : tokenize (some s) = .ok (before ++ opening :: after ++ [t]) :=
    tokenize_eq_ok_iff.mpr ⟨s, c', rfl, nonempty, h.passes.yields read kind⟩
  refine .intro whole kind (.of_nonneg hnonneg) opens (not_isClosed hafter) ?_
  rintro us opening' inside rfl opens'
  -- what closes it stands before the bracket that is not closed
  obtain ⟨between, closing, rest, rfl, partners⟩ := balanced.isClosed opens'
  exact ⟨between, closing, rest ++ opening :: after, by simp, partners⟩

/-- A comma without a call under it stands outside of calls. -/
theorem commaOutsideCall (h : Reaches s limit us a .operator c) (read : c.next = (.ok t, c'))
    (kind : t.kind = .comma)
    (top : ∀ o name f below, a.releaseToParen.pending ≠ .paren o :: .call f name :: below) :
    CommaOutsideCall s t.offset := by
  refine .intro (h.meets read) kind fun before opening hinner => ?_
  have agrees := (h.recognizes read).agrees
  by_cases hparen : ∃ o below, a.releaseToParen.pending = .paren o :: below
  · obtain ⟨o, below, hparen⟩ := hparen
    have plain : ∀ f name rest, below ≠ .call f name :: rest := fun f name rest heq =>
      top o name f rest (heq ▸ hparen)
    obtain ⟨before', opening', hinner', hplain⟩ := agrees.innermostOpen_of_group hparen plain
    obtain ⟨rfl, -⟩ := hinner.unique hinner'
    exact hplain
  · have balanced := agrees.balanced fun o below htop => hparen ⟨o, below, htop⟩
    exact absurd hinner balanced.not_innermostOpen

/-- **What a token leads to is in its place**, if it is a fault of brackets or commas. -/
theorem fitsBrackets (h : Reaches s limit us a e c) (read : c.next = (.ok t, c'))
    (step : Step a t e (.fault f) a') : f.FitsBrackets s := by
  generalize hp : Progress.fault f = progress at step
  cases step with
  | unmatchedClose kind top =>
    cases hp
    exact ⟨fun _ => h.firstSurplus read kind top, nofun, nofun⟩
  | unclosed kind first =>
    cases hp
    exact ⟨nofun, fun _ => h.firstUnclosed read kind first, nofun⟩
  | misplacedComma kind top =>
    cases hp
    exact ⟨nofun, nofun, fun _ => h.commaOutsideCall read kind top⟩
  -- the other faults are of other kinds
  | _ => cases hp <;> exact ⟨nofun, nofun, nofun⟩

end Reaches

end Assembler

/-! ## Whole expressions -/

/-- **Brackets and commas.** The tokens of a program are balanced. A closing bracket is refused only when it
is the first that is too many; an opening bracket, only at the end, when it is the first that is not closed;
a comma, only outside of calls. And where an operator is expected, a closing bracket with none open and a
comma outside of calls are always refused. -/
theorem assemble_brackets (s : String) (limit : Int) :
    (∀ p, assemble (some s) limit = .ok p → ∃ ts, tokenize (some s) = .ok ts ∧ Balanced ts) ∧
    (∀ f, assemble (some s) limit = .error f → f.FitsBrackets s) ∧
    ∀ before a t, (Assembler.start s limit).feed .operand before = (.continue .operator, a) →
      Cursor.Meets s before t →
      (t.kind = .closeParen → (∀ us opening, ¬ InnermostOpen before us opening) →
        assemble (some s) limit = .error ⟨.unmatchedClose, s, t.offset, 1⟩) ∧
      (t.kind = .comma → (∀ us opening, InnermostOpen before us opening → ¬ EndsWithName us) →
        assemble (some s) limit = .error ⟨.misplacedComma, s, t.offset, 1⟩) := by
  refine ⟨?_, ?_, ?_⟩
  · intro p hp
    obtain ⟨s, ts, last, tree, hs, htokens, hlast, -, htree, -⟩ := exists_tree_of_assemble hp
    cases hs
    refine ⟨ts ++ [last], htokens, ?_⟩
    exact htree.derives.balanced.append (.single (openBrackets_of_kind hlast (by decide) (by decide)))
  · intro f hf
    by_cases hlexical : f.category = .lexical
    · exact Fault.fitsBrackets_of_lexical hlexical
    · obtain ⟨us, a, e, c, t, c', a', hreaches, read, step⟩ :=
        Assembler.exists_step_of_assemble_error hf hlexical
      exact hreaches.fitsBrackets read step
  · intro before a t feeds met
    have agrees := Assembler.agrees_of_feed feeds met
    refine ⟨fun kind closed => ?_, fun kind outside => ?_⟩
    · -- whatever bracket were on top, one would be open
      refine Assembler.assemble_eq_error feeds met (Assembler.accept_unmatchedClose kind ?_)
      intro o below top
      by_cases hcall : ∃ f name rest, below = .call f name :: rest
      · obtain ⟨f, name, rest, rfl⟩ := hcall
        obtain ⟨us, opening, hinner, -⟩ := agrees.innermostOpen_of_call top
        exact closed us opening hinner
      · have plain : ∀ f name rest, below ≠ .call f name :: rest := fun f name rest heq =>
          hcall ⟨f, name, rest, heq⟩
        obtain ⟨us, opening, hinner, -⟩ := agrees.innermostOpen_of_group top plain
        exact closed us opening hinner
    · refine Assembler.assemble_eq_error feeds met (Assembler.accept_misplacedComma kind ?_)
      intro o name f below top
      obtain ⟨us, opening, hinner, hname⟩ := agrees.innermostOpen_of_call top
      exact outside us opening hinner hname

/-- The comma of a group is outside of calls, also inside of one. Of two opening brackets the outer one is
not closed, of two closing ones the second is too many. -/
theorem assemble_brackets_nested :
    (∃ ts, tokenize (some "max(1,(2))") = .ok ts ∧ Balanced ts) ∧
      CommaOutsideCall "max(1,(2,3))" 8 ∧ FirstUnclosed "((1)" 0 ∧ FirstSurplus "(1))" 3 ∧
      assemble (some "1)") 0 = .error ⟨.unmatchedClose, "1)", 1, 1⟩ ∧
      assemble (some "1,") 0 = .error ⟨.misplacedComma, "1,", 1, 1⟩ := by
  have hprogram : (assemble (some "max(1,(2))") 2).isOk = true := by decide +kernel
  have hcomma : assemble (some "max(1,(2,3))") 2 =
      .error ⟨.misplacedComma, "max(1,(2,3))", 8, 1⟩ := by decide +kernel
  have hunclosed : assemble (some "((1)") 2 = .error ⟨.unclosedParen, "((1)", 0, 1⟩ := by
    decide +kernel
  have hsurplus : assemble (some "(1))") 2 = .error ⟨.unmatchedClose, "(1))", 3, 1⟩ := by
    decide +kernel
  have hclose : tokenize (some "1)") = .ok ([⟨.number, "1", 0⟩] ++
      ⟨.closeParen, ")", 1⟩ :: [⟨.finish, "", 2⟩]) := by decide +kernel
  have hnone : tokenize (some "1,") = .ok ([⟨.number, "1", 0⟩] ++
      ⟨.comma, ",", 1⟩ :: [⟨.finish, "", 2⟩]) := by decide +kernel
  have balanced : Balanced [⟨.number, "1", 0⟩] :=
    .single (openBrackets_of_kind rfl (by decide) (by decide))
  refine ⟨?_, ((assemble_brackets "max(1,(2,3))" 2).2.1 _ hcomma).comma rfl,
    ((assemble_brackets "((1)" 2).2.1 _ hunclosed).unclosed rfl,
    ((assemble_brackets "(1))" 2).2.1 _ hsurplus).surplus rfl, ?_, ?_⟩
  · cases hp : assemble (some "max(1,(2))") 2 with
    | ok p => exact (assemble_brackets "max(1,(2))" 2).1 p hp
    | error f =>
      rw [hp] at hprogram
      cases hprogram
  · exact ((assemble_brackets "1)" 0).2.2 _ _ _ rfl (Cursor.Meets.of_tokenize hclose)).1 rfl
      fun us opening => balanced.not_innermostOpen
  · exact ((assemble_brackets "1," 0).2.2 _ _ _ rfl (Cursor.Meets.of_tokenize hnone)).2 rfl
      fun us opening hinner => absurd hinner balanced.not_innermostOpen

end Reckoner
