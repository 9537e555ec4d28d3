import Mathlib.Data.List.Induction
import Mathlib.Order.Bounds.Defs
import Reckoner.Proofs.Postfix.Spans

/-! # The limit on open brackets

An assembler looks at its limit only when a bracket opens. So a lower limit does not change a program or
a fault: it only cuts a pass short, at the first bracket that opens beyond it.

* **`Assembler.withLimit`** — an assembler with another limit.
* **`Assembler.accept_withLimit`** — a higher limit changes the effect of a token only when that token
  is a bracket beyond the limit.
* **`Assembler.resume_withLimit`** — so it changes what a pass comes to only when the pass meets such a
  bracket.
* **`exists_deepest`** — the deepest place of a token list.
* **`assemble_lower_limit`** — an expression under two limits. -/

namespace Reckoner

namespace Assembler

/-- An assembler **with another limit** on its open brackets. -/
def withLimit (a : Assembler) (limit : Int) : Assembler := { a with maxDepth := limit }

/-! ## One token -/

/-- The next bracket that opens is **beyond the limit**, and the fault says so. -/
structure Refuses (a : Assembler) (t : Token) (progress : Progress) : Prop where
  opens : t.kind = .openParen
  deep : a.maxDepth < ((a.depth + 1 : Nat) : Int)
  fault : progress = a.faultAt (.nestingTooDeep a.maxDepth) t.offset 1

variable {a a' : Assembler} {e e' : Expectation} {c c' : Cursor} {t : Token} {limit : Int}

/-- A higher limit changes the effect of an opening bracket only when it is beyond the lower one. -/
theorem openParen_withLimit (h : a.maxDepth ≤ limit) (opens : t.kind = .openParen)
    (call : Option (Function × Nat)) :
    (a.withLimit limit).openParen call t.offset =
        ((a.openParen call t.offset).1, (a.openParen call t.offset).2.withLimit limit) ∨
      a.Refuses t (a.openParen call t.offset).1 := by
  by_cases deep : a.maxDepth < ((a.depth + 1 : Nat) : Int)
  · refine .inr ⟨opens, deep, ?_⟩
    unfold openParen
    exact congrArg Prod.fst (if_pos deep)
  · -- what is not beyond the lower limit is not beyond the higher one
    have fits : ¬ limit < ((a.depth + 1 : Nat) : Int) := fun h' => deep (Int.lt_of_le_of_lt h h')
    refine .inl ?_
    unfold openParen
    dsimp only [withLimit]
    rw [if_neg deep, if_neg fits]
    cases call <;> rfl

/-- A higher limit changes nothing but a refusal. -/
theorem acceptOperand_withLimit (h : a.maxDepth ≤ limit) :
    (a.withLimit limit).acceptOperand t =
        ((a.acceptOperand t).1, (a.acceptOperand t).2.withLimit limit) ∨
      a.Refuses t (a.acceptOperand t).1 := by
  by_cases opens : t.kind = .openParen
  · have hopen (b : Assembler) : b.acceptOperand t = b.openParen none t.offset := by
      simp only [acceptOperand, opens, TokenKind.sign?]
    rw [hopen, hopen]
    exact openParen_withLimit h opens none
  · refine .inl ?_
    unfold acceptOperand
    split
    · next negates _ => cases negates <;> rfl
    · dsimp only
      split
      · rfl
      · split <;> rfl
      · split <;> rfl
      · next kind => exact absurd kind opens
      · rfl
      · rfl

/-- Nothing that comes out of the stack looks at the limit. -/
@[simp] theorem releaseToParen_withLimit :
    (a.withLimit limit).releaseToParen = a.releaseToParen.withLimit limit := rfl

/-- Commas do not look at the limit. -/
@[simp] theorem acceptComma_withLimit (offset : Nat) :
    (a.withLimit limit).acceptComma offset =
      ((a.acceptComma offset).1, (a.acceptComma offset).2.withLimit limit) := by
  unfold acceptComma
  rw [releaseToParen_withLimit]
  generalize a.releaseToParen = b
  dsimp only [withLimit]
  split <;> rfl

/-- Nor do closing brackets. -/
@[simp] theorem acceptClose_withLimit :
    (a.withLimit limit).acceptClose t =
      ((a.acceptClose t).1, (a.acceptClose t).2.withLimit limit) := by
  unfold acceptClose
  rw [releaseToParen_withLimit]
  generalize a.releaseToParen = b
  dsimp only [withLimit]
  split
  · -- the bracket of a call
    unfold closeCall
    dsimp only
    split
    · rfl
    · split <;> rfl
  · rfl
  · rfl

/-- After an operand no handler looks at the limit. -/
@[simp] theorem acceptOperator_withLimit :
    (a.withLimit limit).acceptOperator t =
      ((a.acceptOperator t).1, (a.acceptOperator t).2.withLimit limit) := by
  unfold acceptOperator
  split
  · rfl
  · split
    · rfl
    · exact acceptComma_withLimit t.offset
    · exact acceptClose_withLimit
    · unfold acceptFinish
      dsimp only [withLimit]
      split <;> rfl
    · rfl

/-- **A higher limit changes the effect of a token** only when that token is a bracket beyond the lower
limit. -/
theorem accept_withLimit (h : a.maxDepth ≤ limit) (e : Expectation) (t : Token) :
    (a.withLimit limit).accept e t = ((a.accept e t).1, (a.accept e t).2.withLimit limit) ∨
      a.Refuses t (a.accept e t).1 := by
  unfold accept
  split
  · exact .inl rfl
  · cases e with
    | operand => exact acceptOperand_withLimit h
    | operator => exact .inl acceptOperator_withLimit
    | bracket f name =>
      dsimp only
      split
      · next opens => exact openParen_withLimit h opens (some (f, name))
      · exact acceptOperand_withLimit h
    | firstOperand f offset =>
      dsimp only
      split
      · exact .inl rfl
      · exact acceptOperand_withLimit h

/-! ## Passes -/

/-- **A pass goes on in the same way** under a higher limit. -/
theorem Requests.withLimit (h : Requests a e c a' e' c') (hlimit : a.maxDepth ≤ limit) :
    Requests (a.withLimit limit) e c (a'.withLimit limit) e' c' ∧ a'.maxDepth = a.maxDepth := by
  induction h with
  | first => exact ⟨.first, rfl⟩
  | @next a₁ a₂ e₁ e₂ c₁ c₂ t before read accepted ih =>
    obtain ⟨hbefore, hsame⟩ := ih
    have hnext : (a₁.withLimit limit).accept e₁ t = (.continue e₂, a₂.withLimit limit) := by
      rcases accept_withLimit (hsame ▸ hlimit) e₁ t with heq | hrefuses
      · rw [heq, accepted]
      · -- a refused bracket does not lead on
        rw [accepted] at hrefuses
        cases hrefuses.fault
    exact ⟨.next hbefore read hnext, (maxDepth_of_accept accepted).trans hsame⟩

/-- **What a pass comes to** under a higher limit is the same, unless it meets a bracket beyond the lower
one. -/
theorem resume_withLimit (hlimit : a.maxDepth ≤ limit) (e : Expectation) (c : Cursor) :
    ((a.withLimit limit).resume e c).1 = (a.resume e c).1 ∨
      ∃ a₁ e₁ c₁ t c₂, Requests a e c a₁ e₁ c₁ ∧ c₁.next = (.ok t, c₂) ∧ t.kind = .openParen ∧
        a.maxDepth < ((a₁.depth + 1 : Nat) : Int) ∧
        (a.resume e c).1 = .error ⟨.nestingTooDeep a.maxDepth, a.source, t.offset, 1⟩ := by
  obtain ⟨a₁, e₁, c₁, hrequests, hends⟩ := exists_ends a e c
  obtain ⟨hrequests', hsame⟩ := hrequests.withLimit hlimit
  have hlimit' : a₁.maxDepth ≤ limit := hsame ▸ hlimit
  rw [hrequests'.resume_eq]
  generalize hresult : (a.resume e c).1 = result at hends ⊢
  generalize (a.resume e c).2.1 = a₂ at hends
  generalize (a.resume e c).2.2 = c₂ at hends
  cases hends with
  | unreadable read => exact .inl (congrArg Prod.fst (resume_of_error read))
  | @fault a₂ c₂ t f read accepted =>
    rcases accept_withLimit hlimit' e₁ t with heq | hrefuses
    · rw [accepted] at heq
      exact .inl (congrArg Prod.fst (resume_of_fault read heq))
    · rw [accepted] at hrefuses
      have hfault : f = ⟨.nestingTooDeep a.maxDepth, a.source, t.offset, 1⟩ := by
        rw [← hsame, ← hrequests.source_eq.1]
        exact Progress.fault.inj hrefuses.fault
      exact .inr ⟨a₁, e₁, c₁, t, c₂, hrequests, read, hrefuses.opens, hsame ▸ hrefuses.deep,
        congrArg _ hfault⟩
  | @complete a₂ c₂ t read accepted =>
    rcases accept_withLimit hlimit' e₁ t with heq | hrefuses
    · rw [accepted] at heq
      exact .inl (congrArg Prod.fst (resume_of_complete read heq))
    · rw [accepted] at hrefuses
      cases hrefuses.fault

end Assembler

/-! ## The deepest place -/

/-- **Some place of a token list is the deepest**: the most brackets are open there. -/
theorem exists_deepest (ts : List Token) :
    ∃ k : Nat, IsGreatest {n : Int | ∃ before, before <+: ts ∧ openBrackets before = n} k := by
  induction ts using List.reverseRecOn with
  | nil =>
    refine ⟨0, ⟨[], List.nil_prefix, rfl⟩, ?_⟩
    rintro _ ⟨before, hb, rfl⟩
    rw [List.prefix_nil.mp hb]
    exact Int.le_refl 0
  | append_singleton ts t ih =>
    obtain ⟨k, ⟨deepest, hdeepest, hk⟩, hmax⟩ := ih
    -- the deepest place is the one so far or the one after the last token
    by_cases hlast : openBrackets (ts ++ [t]) ≤ k
    · refine ⟨k, ⟨deepest, hdeepest.trans (List.prefix_append ts [t]), hk⟩, ?_⟩
      rintro _ ⟨before, hb, rfl⟩
      rcases List.prefix_concat_iff.mp hb with rfl | hb
      · exact hlast
      · exact hmax ⟨before, hb, rfl⟩
    · obtain ⟨m, hm⟩ := Int.eq_ofNat_of_zero_le (a := openBrackets (ts ++ [t])) (by omega)
      refine ⟨m, ⟨ts ++ [t], List.prefix_refl _, hm⟩, ?_⟩
      rintro _ ⟨before, hb, rfl⟩
      rcases List.prefix_concat_iff.mp hb with rfl | hb
      · exact Int.le_of_eq hm
      · have hbefore : openBrackets before ≤ k := hmax ⟨before, hb, rfl⟩
        omega

/-! ## Whole expressions -/

/-- **A lower limit only cuts.** Under it an expression has the same program or the same fault, or the
fault is at the first bracket that is open beyond it. An expression that has a program under the higher
limit has one under the lower limit exactly when that is as great as the depth of its deepest place. -/
theorem assemble_lower_limit (source : Option String) {limit limit' : Nat} (h : limit ≤ limit') :
    (assemble source limit = assemble source limit' ∨
      ∃ s before t, source = some s ∧ Cursor.Meets s before t ∧ t.kind = .openParen ∧
        (∀ us, us <+: before → openBrackets us ≤ limit) ∧
        openBrackets (before ++ [t]) = limit + 1 ∧
        assemble source limit = .error ⟨.nestingTooDeep limit, s, t.offset, 1⟩) ∧
    ∀ p, assemble source limit' = .ok p →
      ∃ ts last, ∃ k : Nat, tokenize source = .ok (ts ++ [last]) ∧ last.kind = .finish ∧
        IsGreatest {n : Int | ∃ before, before <+: ts ∧ openBrackets before = n} k ∧
        ((∃ q, assemble source limit = .ok q) ↔ k ≤ limit) := by
  refine ⟨?_, ?_⟩
  · cases source with
    | none => exact .inl rfl
    | some s =>
      by_cases nonempty : s = ""
      · subst nonempty
        exact .inl rfl
      · rw [assemble_eq_resume nonempty, assemble_eq_resume nonempty]
        rcases Assembler.resume_withLimit (a := .start s limit) (Int.ofNat_le.mpr h) .operand
          (.atStart s) with heq | ⟨a, e, c, t, c', hrequests, read, opens, deep, hfault⟩
        · exact .inl heq.symm
        · obtain ⟨us, hreaches⟩ := hrequests.exists_reaches
          -- what has been passed nests within the limit, and the depth is what it leaves open
          have hnests : ∀ vs, vs <+: us → openBrackets vs ≤ limit :=
            (nestsWithin_iff (Int.natCast_nonneg limit)).mp (hreaches.recognizes read).nests
          have hopen := hnests us (List.prefix_refl us)
          have hdepth := hreaches.depth_eq read
          have hdeep : (limit : Int) < ((a.depth + 1 : Nat) : Int) := deep
          refine .inr ⟨s, us, t, rfl, hreaches.meets read, opens, hnests, ?_, hfault⟩
          rw [openBrackets_append, openBrackets_of_open opens]
          omega
  · intro p hp
    obtain ⟨ts, last, htokens, hlast, hlegal, hderives, hnests⟩ :=
      (assemble_accepts_iff source limit').1.mp ⟨p, hp⟩
    obtain ⟨k, ⟨deepest, hbegins, hk⟩, hmax⟩ := exists_deepest ts
    refine ⟨ts, last, k, htokens, hlast, ⟨⟨deepest, hbegins, hk⟩, hmax⟩, ?_⟩
    rw [(assemble_accepts_iff source limit).1]
    constructor
    · rintro ⟨us, last', htokens', -, -, -, hopen⟩
      -- there is one way to split a text into tokens
      rw [htokens] at htokens'
      obtain ⟨rfl, -⟩ := List.append_inj' (Except.ok.inj htokens') rfl
      have hdeepest := hopen deepest hbegins
      omega
    · intro hle
      refine ⟨ts, last, htokens, hlast, hlegal, hderives, ?_⟩
      intro before hb
      have hbefore : openBrackets before ≤ k := hmax ⟨before, hb, rfl⟩
      omega

/-- The second bracket of `max((1),2)` is beyond a limit of one, and the bracket of the call counts. -/
theorem assemble_lower_limit_nested_call :
    (∃ p, assemble (some "max((1),2)") 2 = .ok p) ∧
      ∃ before t, Cursor.Meets "max((1),2)" before t ∧ openBrackets (before ++ [t]) = 2 ∧
        assemble (some "max((1),2)") 1 =
          .error ⟨.nestingTooDeep 1, "max((1),2)", t.offset, 1⟩ := by
  have hhigher : (assemble (some "max((1),2)") 2).isOk = true := by decide +kernel
  have hlower : (assemble (some "max((1),2)") 1).isOk = false := by decide +kernel
  have hlimit : 1 ≤ 2 := by decide
  obtain ⟨hcut, -⟩ := assemble_lower_limit (some "max((1),2)") hlimit
  rcases hcut with heq | ⟨s, before, t, hs, hmeets, -, -, hopen, hfault⟩
  · have hsame : assemble (some "max((1),2)") 1 = assemble (some "max((1),2)") 2 := heq
    rw [hsame, hhigher] at hlower
    cases hlower
  · cases hs
    refine ⟨?_, before, t, hmeets, hopen, hfault⟩
    cases hp : assemble (some "max((1),2)") 2 with
    | error f =>
      rw [hp] at hhigher
      cases hhigher
    | ok p => exact ⟨p, rfl⟩

end Reckoner
