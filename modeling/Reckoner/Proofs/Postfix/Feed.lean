import Reckoner.Proofs.Postfix.Transition
import Reckoner.Proofs.Token.Sequence

/-! # Assembling from a list of tokens

An assembler pulls its tokens from a cursor one at a time. This file takes the cursor away: a pass
that succeeds is the same as accepting, one after the other, all tokens that the cursor yields.

* **`Assembler.feed`** — the effect of a list of tokens, up to the first that ends the pass.
* **`Assembler.Requests`, `Assembler.Ends`** — the moments at which a pass asks for a token, and how
  it ends with the last of them (`Assembler.exists_ends`).
* **`Assembler.resume_eq_ok_iff`** — a pass succeeds exactly when feeding all tokens completes.
* **`assemble_eq_ok_iff`** — the same for a whole expression. -/

namespace Reckoner

namespace Assembler

/-- The effect of the tokens of a list, one after the other, up to the first that does not lead to a
further expectation. -/
def feed (a : Assembler) (e : Expectation) : List Token → Progress × Assembler
  | [] => (.continue e, a)
  | t :: ts =>
    match a.accept e t with
    | (.continue e', a') => a'.feed e' ts
    | (.complete, a') => (.complete, a')
    | (.fault f, a') => (.fault f, a')

/-- No token leaves an assembler as it is. -/
@[simp] theorem feed_nil (a : Assembler) (e : Expectation) : a.feed e [] = (.continue e, a) := rfl

/-- A token that is accepted goes before the others. -/
theorem feed_cons {a a' : Assembler} {e e' : Expectation} {t : Token}
    (h : a.accept e t = (.continue e', a')) (ts : List Token) :
    a.feed e (t :: ts) = a'.feed e' ts := by
  rw [feed, h]

/-- Nothing is fed after the end. -/
theorem feed_cons_of_complete {a a' : Assembler} {e : Expectation} {t : Token}
    (h : a.accept e t = (.complete, a')) (ts : List Token) :
    a.feed e (t :: ts) = (.complete, a') := by
  rw [feed, h]

/-- Feeding leads on only if the first token does. -/
theorem accept_of_feed_continue {a a' : Assembler} {e e' : Expectation} {t : Token}
    {ts : List Token} (h : a.feed e (t :: ts) = (.continue e', a')) :
    ∃ e₁ a₁, a.accept e t = (.continue e₁, a₁) ∧ a₁.feed e₁ ts = (.continue e', a') := by
  rw [feed] at h
  split at h
  · next e₁ a₁ hacc => exact ⟨e₁, a₁, hacc, h⟩
  · cases h
  · cases h

/-- Feeding completes a program only if the first token does or leads on. -/
theorem accept_of_feed_complete {a a' : Assembler} {e : Expectation} {t : Token}
    {ts : List Token} (h : a.feed e (t :: ts) = (.complete, a')) :
    a.accept e t = (.complete, a') ∨
      ∃ e₁ a₁, a.accept e t = (.continue e₁, a₁) ∧ a₁.feed e₁ ts = (.complete, a') := by
  rw [feed] at h
  split at h
  · next e₁ a₁ hacc => exact .inr ⟨e₁, a₁, hacc, h⟩
  · next a₁ hacc =>
    cases h
    exact .inl hacc
  · cases h

/-- Feeding goes on where it stopped. -/
theorem feed_append {a a' : Assembler} {e e' : Expectation} {ts : List Token}
    (h : a.feed e ts = (.continue e', a')) (us : List Token) :
    a.feed e (ts ++ us) = a'.feed e' us := by
  induction ts generalizing a e with
  | nil =>
    cases h
    rfl
  | cons t ts ih =>
    obtain ⟨e₁, a₁, hacc, hrest⟩ := accept_of_feed_continue h
    rw [List.cons_append, feed_cons hacc, ih hrest]

/-- Only the end token completes a program. -/
theorem finish_of_accept_complete {a a' : Assembler} {e : Expectation} {t : Token}
    (h : a.accept e t = (.complete, a')) : t.kind = .finish := by
  cases step_of_accept h with
  | complete kind closed => exact kind

/-- When tokens complete a program, those before the end token lead on. -/
theorem exists_of_feed_complete {a a' : Assembler} {e : Expectation} {ts : List Token} {last : Token}
    (inner : ∀ t ∈ ts, t.kind ≠ .finish) (h : a.feed e (ts ++ [last]) = (.complete, a')) :
    ∃ e₁ a₁, a.feed e ts = (.continue e₁, a₁) ∧ a₁.accept e₁ last = (.complete, a') := by
  induction ts generalizing a e with
  | nil =>
    rw [List.nil_append] at h
    rcases accept_of_feed_complete h with hacc | ⟨e₁, a₁, -, hrest⟩
    · exact ⟨e, a, rfl, hacc⟩
    · -- feeding nothing completes nothing
      cases hrest
  | cons t ts ih =>
    rw [List.cons_append] at h
    have hts : ∀ u ∈ ts, u.kind ≠ .finish := fun u hu => inner u (List.mem_cons_of_mem t hu)
    rcases accept_of_feed_complete h with hacc | ⟨e₁, a₁, hacc, hrest⟩
    · exact absurd (finish_of_accept_complete hacc) (inner t (List.mem_cons_self ..))
    · rw [feed_cons hacc]
      exact ih hts hrest

/-! ## Passes over a cursor -/

-- One equation for each outcome of a request: later proofs never unfold `resume`.

/-- A text that is no token ends an assembly. -/
theorem resume_of_error {a : Assembler} {e : Expectation} {c c' : Cursor} {f : Fault}
    (read : c.next = (.error f, c')) : a.resume e c = (.error f, a, c') := by
  rw [resume]
  split
  · next f₁ c₁ h => rw [read] at h; cases h; rfl
  · next t₁ c₁ h => rw [read] at h; cases h

/-- A token that is accepted leads on. -/
theorem resume_of_continue {a a' : Assembler} {e e' : Expectation} {c c' : Cursor} {t : Token}
    (read : c.next = (.ok t, c')) (hacc : a.accept e t = (.continue e', a')) :
    a.resume e c = a'.resume e' c' := by
  rw [resume]
  split
  · next f₁ c₁ h => rw [read] at h; cases h
  · next t₁ c₁ h =>
    rw [read] at h
    cases h
    split
    · next h₂ => rw [hacc] at h₂; cases h₂
    · next h₂ => rw [hacc] at h₂; cases h₂
    · next h₂ => rw [hacc] at h₂; cases h₂; rfl

/-- The end leads to the program. -/
theorem resume_of_complete {a a' : Assembler} {e : Expectation} {c c' : Cursor} {t : Token}
    (read : c.next = (.ok t, c')) (hacc : a.accept e t = (.complete, a')) :
    a.resume e c = (.ok a'.program, a', c') := by
  rw [resume]
  split
  · next f₁ c₁ h => rw [read] at h; cases h
  · next t₁ c₁ h =>
    rw [read] at h
    cases h
    split
    · next h₂ => rw [hacc] at h₂; cases h₂
    · next h₂ => rw [hacc] at h₂; cases h₂; rfl
    · next h₂ => rw [hacc] at h₂; cases h₂

/-- A token with a fault ends an assembly. -/
theorem resume_of_fault {a a' : Assembler} {e : Expectation} {c c' : Cursor} {t : Token} {f : Fault}
    (read : c.next = (.ok t, c')) (hacc : a.accept e t = (.fault f, a')) :
    a.resume e c = (.error f, a', c') := by
  rw [resume]
  split
  · next f₁ c₁ h => rw [read] at h; cases h
  · next t₁ c₁ h =>
    rw [read] at h
    cases h
    split
    · next h₂ => rw [hacc] at h₂; cases h₂; rfl
    · next h₂ => rw [hacc] at h₂; cases h₂
    · next h₂ => rw [hacc] at h₂; cases h₂

/-- While a pass over `c` that began at `a` and `e` is under way, it **requests a token** of the
cursor `c'`, expecting `e'`, when its assembler is `a'`. -/
inductive Requests (a : Assembler) (e : Expectation) (c : Cursor) :
    Assembler → Expectation → Cursor → Prop
  | first : Requests a e c a e c
  | next {a₁ a₂ : Assembler} {e₁ e₂ : Expectation} {c₁ c₂ : Cursor} {t : Token}
      (before : Requests a e c a₁ e₁ c₁) (read : c₁.next = (.ok t, c₂))
      (accepted : a₁.accept e₁ t = (.continue e₂, a₂)) : Requests a e c a₂ e₂ c₂

/-- How a pass **ends** with the token that it requests. -/
inductive Ends (a : Assembler) (e : Expectation) (c : Cursor) :
    Except Fault Program → Assembler → Cursor → Prop
  | unreadable {c' : Cursor} {f : Fault} (read : c.next = (.error f, c')) : Ends a e c (.error f) a c'
  | fault {a' : Assembler} {c' : Cursor} {t : Token} {f : Fault} (read : c.next = (.ok t, c'))
      (accepted : a.accept e t = (.fault f, a')) : Ends a e c (.error f) a' c'
  | complete {a' : Assembler} {c' : Cursor} {t : Token} (read : c.next = (.ok t, c'))
      (accepted : a.accept e t = (.complete, a')) : Ends a e c (.ok a'.program) a' c'

/-- The requests of a pass go on with those of its rest. -/
theorem Requests.of_next {a a₁ a₂ : Assembler} {e e₁ e₂ : Expectation} {c c₁ c₂ : Cursor} {t : Token}
    (read : c.next = (.ok t, c₁)) (accepted : a.accept e t = (.continue e₁, a₁))
    (h : Requests a₁ e₁ c₁ a₂ e₂ c₂) : Requests a e c a₂ e₂ c₂ := by
  -- the requests are counted from the front, so the new one goes in at the first
  induction h with
  | first => exact .next .first read accepted
  | next _ read' accepted' ih => exact .next ih read' accepted'

/-- From any of its requests a pass goes on as one that begins there. -/
theorem Requests.resume_eq {a a' : Assembler} {e e' : Expectation} {c c' : Cursor}
    (h : Requests a e c a' e' c') : a.resume e c = a'.resume e' c' := by
  induction h with
  | first => rfl
  | next _ read accepted ih => rw [ih, resume_of_continue read accepted]

/-- The text of a pass stays the same. -/
theorem Requests.source_eq {a a' : Assembler} {e e' : Expectation} {c c' : Cursor}
    (h : Requests a e c a' e' c') : a'.source = a.source ∧ c'.source = c.source := by
  induction h with
  | first => exact ⟨rfl, rfl⟩
  | @next a₁ a₂ e₁ e₂ c₁ c₂ t before read accepted ih =>
    have hsource : c₂.source = c₁.source := by
      have h := c₁.source_next
      rwa [read] at h
    exact ⟨(step_of_accept accepted).source_eq.1.trans ih.1, hsource.trans ih.2⟩

/-- A fault that ends a pass is one in its text. -/
theorem Ends.source_eq {a a' : Assembler} {e : Expectation} {c c' : Cursor} {f : Fault}
    (same : c.source = a.source) (h : Ends a e c (.error f) a' c') : f.source = a.source := by
  cases h with
  | unreadable read =>
    obtain ⟨g, -, rfl⟩ := Cursor.scanToken_of_next_error read
    exact same
  | fault read accepted => exact (step_of_accept accepted).source_eq.2 _ rfl

/-- **Every pass ends** with one of the tokens that it requests. -/
theorem exists_ends (a : Assembler) (e : Expectation) (c : Cursor) :
    ∃ a₁ e₁ c₁, Requests a e c a₁ e₁ c₁ ∧
      Ends a₁ e₁ c₁ (a.resume e c).1 (a.resume e c).2.1 (a.resume e c).2.2 := by
  -- every token that leads on uses up characters of the cursor
  induction n : c.rest.length using Nat.strongRecOn generalizing a e c with
  | ind n ih =>
    cases hc : c.next with
    | mk result c' =>
      cases result with
      | error f =>
        rw [resume_of_error hc]
        exact ⟨a, e, c, .first, .unreadable hc⟩
      | ok t =>
        cases hacc : a.accept e t with
        | mk progress a' =>
          cases progress with
          | «continue» e' =>
            have inner : t.kind ≠ .finish := fun last => accept_finish last (by rw [hacc])
            have shorter := Cursor.length_rest_of_next hc inner
            obtain ⟨a₁, e₁, c₁, hrequests, hends⟩ := ih _ (n ▸ shorter) a' e' c' rfl
            rw [resume_of_continue hc hacc]
            exact ⟨a₁, e₁, c₁, hrequests.of_next hc hacc, hends⟩
          | complete =>
            rw [resume_of_complete hc hacc]
            exact ⟨a, e, c, .first, .complete hc hacc⟩
          | fault f =>
            rw [resume_of_fault hc hacc]
            exact ⟨a, e, c, .first, .fault hc hacc⟩

/-- **A pass succeeds exactly when feeding all tokens completes.** -/
theorem resume_eq_ok_iff {a a' : Assembler} {e : Expectation} {c c' : Cursor} {p : Program} :
    a.resume e c = (.ok p, a', c') ↔
      ∃ ts, c.Yields ts c' ∧ a.feed e ts = (.complete, a') ∧ p = a'.program := by
  constructor
  · intro h
    -- every token but the last uses up characters of the cursor
    induction n : c.rest.length using Nat.strongRecOn generalizing a e c with
    | ind n ih =>
      cases hc : c.next with
      | mk result c₁ =>
        cases result with
        | error f => rw [resume_of_error hc] at h; cases h
        | ok t =>
          cases hacc : a.accept e t with
          | mk progress a₁ =>
            cases progress with
            | «continue» e₁ =>
              rw [resume_of_continue hc hacc] at h
              have inner : t.kind ≠ .finish := fun last => accept_finish last (by rw [hacc])
              have shorter := Cursor.length_rest_of_next hc inner
              obtain ⟨ts, hyield, hfeed, hp⟩ := ih _ (n ▸ shorter) h rfl
              exact ⟨t :: ts, .step hc inner hyield, by rw [feed_cons hacc, hfeed], hp⟩
            | complete =>
              rw [resume_of_complete hc hacc] at h
              cases h
              exact ⟨[t], .finish hc (finish_of_accept_complete hacc),
                feed_cons_of_complete hacc [], rfl⟩
            | fault f => rw [resume_of_fault hc hacc] at h; cases h
  · rintro ⟨ts, hyield, hfeed, rfl⟩
    induction hyield generalizing a e with
    | finish read last =>
      rcases accept_of_feed_complete hfeed with hacc | ⟨e₁, a₁, hacc, -⟩
      · exact resume_of_complete read hacc
      · -- the end token never leads on
        exact absurd (congrArg Prod.fst hacc) (accept_finish last)
    | step read inner rest ih =>
      rcases accept_of_feed_complete hfeed with hacc | ⟨e₁, a₁, hacc, hrest⟩
      · exact absurd (finish_of_accept_complete hacc) inner
      · rw [resume_of_continue read hacc]
        exact ih hrest

end Assembler

/-! ## Whole expressions -/

/-- **An expression has a program exactly when feeding all its tokens completes.** -/
theorem assemble_eq_ok_iff {source : Option String} {maxDepth : Int} {p : Program} :
    assemble source maxDepth = .ok p ↔
      ∃ s ts c' a', source = some s ∧ s ≠ "" ∧ (Cursor.atStart s).Yields ts c' ∧
        (Assembler.start s maxDepth).feed .operand ts = (.complete, a') ∧ p = a'.program := by
  constructor
  · intro h
    rw [assemble] at h
    cases hopen : Cursor.open? source with
    | error f => rw [hopen] at h; cases h
    | ok c =>
      rw [hopen] at h
      obtain ⟨s, hs, hne, rfl⟩ := Cursor.open?_eq_ok_iff.mp hopen
      obtain ⟨ts, hyield, hfeed, hp⟩ := Assembler.resume_eq_ok_iff.mp (Prod.ext h rfl)
      exact ⟨s, ts, _, _, hs, hne, hyield, hfeed, hp⟩
  · rintro ⟨s, ts, c', a', rfl, hne, hyield, hfeed, rfl⟩
    rw [assemble, Cursor.open?_eq_ok_iff.mpr ⟨s, rfl, hne, rfl⟩]
    exact congrArg Prod.fst (Assembler.resume_eq_ok_iff.mpr ⟨ts, hyield, hfeed, rfl⟩)

/-- The program of a nonempty expression is the result of one pass from its beginning. -/
theorem assemble_eq_resume {s : String} (nonempty : s ≠ "") (maxDepth : Int) :
    assemble (some s) maxDepth =
      ((Assembler.start s maxDepth).resume .operand (.atStart s)).1 := by
  have hopen : Cursor.open? (some s) = .ok (.atStart s) :=
    Cursor.open?_eq_ok_iff.mpr ⟨s, rfl, nonempty, rfl⟩
  rw [assemble, hopen]
  rfl

/-- A fault of an expression is one in its text. -/
theorem source_of_assemble_error {source : Option String} {maxDepth : Int} {f : Fault}
    (h : assemble source maxDepth = .error f) : f.source = source.getD "" := by
  cases source with
  | none =>
    cases h
    rfl
  | some s =>
    by_cases hs : s = ""
    · subst hs
      cases h
      rfl
    · rw [assemble_eq_resume hs] at h
      obtain ⟨a, e, c, hrequests, hends⟩ :=
        Assembler.exists_ends (.start s maxDepth) .operand (.atStart s)
      rw [h] at hends
      obtain ⟨ha, hc⟩ := hrequests.source_eq
      exact (hends.source_eq (hc.trans ha.symm)).trans ha

end Reckoner
