import Mathlib.Data.List.Chain
import Mathlib.Data.List.Induction
import Reckoner.Proofs.Expression.Operand

/-! # Partners of brackets

Which bracket closes which, told from the tokens alone: an opening and a closing bracket are partners when
the tokens between them are balanced.

* **`Partners`**, **`IsClosed`**, **`WasOpened`** — two brackets that belong together, and brackets that
  have a partner after them or before them.
* **`InnermostOpen`** — the last of the brackets that are still open after some tokens. There is one when
  more brackets open than close (`exists_innermostOpen`), and never another (`InnermostOpen.unique`).
* **`Balanced.isClosed`, `EachOpened.of_nonneg`** — counting finds the partners.
* **`EndsWithName`** — tokens whose last one is the name of a function, as they stand before the bracket of
  a call. No phrase ends so (`Derives.namesOpen`). -/

namespace Reckoner

/-! ## Partners -/

/-- Two brackets are **partners** when what is between them is balanced. -/
structure Partners (opening : Token) (inside : List Token) (closing : Token) : Prop where
  opens : opening.kind = .openParen
  balanced : Balanced inside
  closes : closing.kind = .closeParen

/-- An opening bracket **is closed** by one of the tokens after it. -/
def IsClosed (opening : Token) (after : List Token) : Prop :=
  ∃ inside closing rest, after = inside ++ closing :: rest ∧ Partners opening inside closing

/-- A closing bracket **was opened** by one of the tokens before it. -/
def WasOpened (before : List Token) (closing : Token) : Prop :=
  ∃ us opening inside, before = us ++ opening :: inside ∧ Partners opening inside closing

/-- Every closing bracket among some tokens was opened. -/
def EachOpened (ts : List Token) : Prop :=
  ∀ before closing after, ts = before ++ closing :: after → closing.kind = .closeParen →
    WasOpened before closing

/-- The **innermost bracket that is open** after the tokens `ts`, and the tokens `us` before it: all
brackets after it are closed. -/
structure InnermostOpen (ts us : List Token) (opening : Token) : Prop where
  opens : opening.kind = .openParen
  closed : ∃ inside, ts = us ++ opening :: inside ∧ Balanced inside

/-! ## Finding partners by counting -/

/-- A token opens a bracket, closes one, or does not matter. -/
theorem openBrackets_cases (t : Token) :
    (t.kind = .openParen ∧ openBrackets [t] = 1) ∨ (t.kind = .closeParen ∧ openBrackets [t] = -1) ∨
      openBrackets [t] = 0 := by
  by_cases opens : t.kind = .openParen
  · exact .inl ⟨opens, openBrackets_of_open opens⟩
  by_cases closes : t.kind = .closeParen
  · exact .inr (.inl ⟨closes, openBrackets_of_close closes⟩)
  · exact .inr (.inr (openBrackets_of_kind rfl opens closes))

section Counting

variable {ts us before after : List Token} {t opening closing : Token}

/-- What follows a place in balanced tokens closes what is open there. -/
theorem balanced_of_suffixes (closed : openBrackets ts = 0)
    (nonpos : ∀ us, us <:+ ts → openBrackets us ≤ 0) : Balanced ts := by
  refine ⟨closed, ?_⟩
  rintro before ⟨after, rfl⟩
  have hafter := nonpos after (List.suffix_append before after)
  rw [openBrackets_append] at closed
  omega

/-- **Where more brackets open than close**, one is the innermost. -/
theorem exists_innermostOpen (h : ∃ us, us <:+ ts ∧ 0 < openBrackets us) :
    ∃ us opening, InnermostOpen ts us opening := by
  induction ts with
  | nil =>
    obtain ⟨us, hus, hpos⟩ := h
    rw [List.suffix_nil.mp hus] at hpos
    cases hpos
  | cons t ts ih =>
    by_cases hlater : ∃ us, us <:+ ts ∧ 0 < openBrackets us
    · -- a bracket that is open after the first token is further inside
      obtain ⟨us, opening, hinner⟩ := ih hlater
      obtain ⟨opens, inside, rfl, balanced⟩ := hinner
      exact ⟨t :: us, opening, opens, inside, rfl, balanced⟩
    · have hnonpos : ∀ us, us <:+ ts → openBrackets us ≤ 0 := fun us hus =>
        Int.not_lt.mp fun hpos => hlater ⟨us, hus, hpos⟩
      obtain ⟨us, hus, hpos⟩ := h
      rcases List.suffix_cons_iff.mp hus with rfl | hus
      · -- only the first token opens more than is closed, so the others are balanced
        have hts := hnonpos ts List.suffix_rfl
        rw [openBrackets_cons] at hpos
        rcases openBrackets_cases t with ⟨opens, hone⟩ | ⟨-, hone⟩ | hone
        · exact ⟨[], t, opens, ts, rfl, balanced_of_suffixes (by omega) hnonpos⟩
        · omega
        · omega
      · exact absurd hpos (Int.not_lt.mpr (hnonpos us hus))

/-- **Where more brackets close than open**, the first that is too many follows balanced tokens. -/
theorem exists_surplus (h : ∃ us, us <+: ts ∧ openBrackets us < 0) :
    ∃ inside closing rest, ts = inside ++ closing :: rest ∧ closing.kind = .closeParen ∧
      Balanced inside := by
  induction ts using List.reverseRecOn with
  | nil =>
    obtain ⟨us, hus, hneg⟩ := h
    rw [List.prefix_nil.mp hus] at hneg
    cases hneg
  | append_singleton ts t ih =>
    by_cases hearlier : ∃ us, us <+: ts ∧ openBrackets us < 0
    · obtain ⟨inside, closing, rest, rfl, closes, balanced⟩ := ih hearlier
      exact ⟨inside, closing, rest ++ [t], by simp, closes, balanced⟩
    · have hnonneg : ∀ us, us <+: ts → 0 ≤ openBrackets us := fun us hus =>
        Int.not_lt.mp fun hneg => hearlier ⟨us, hus, hneg⟩
      obtain ⟨us, hus, hneg⟩ := h
      rcases List.prefix_concat_iff.mp hus with rfl | hus
      · -- only the last token closes more than is open, so the others are balanced
        have hts := hnonneg ts List.prefix_rfl
        rw [openBrackets_append] at hneg
        rcases openBrackets_cases t with ⟨-, hone⟩ | ⟨closes, hone⟩ | hone
        · omega
        · exact ⟨ts, t, [], rfl, closes, by omega, hnonneg⟩
        · omega
      · exact absurd hneg (Int.not_lt.mpr (hnonneg us hus))

/-- **Each bracket that opens in balanced tokens is closed there.** -/
theorem Balanced.isClosed (h : Balanced (before ++ opening :: after)) (opens : opening.kind = .openParen) :
    IsClosed opening after := by
  have hbefore := h.nonneg before (List.prefix_append _ _)
  have hclosed := h.closed
  rw [openBrackets_append, openBrackets_cons, openBrackets_of_open opens] at hclosed
  obtain ⟨inside, closing, rest, hsplit, closes, balanced⟩ :=
    exists_surplus ⟨after, List.prefix_rfl, by omega⟩
  exact ⟨inside, closing, rest, hsplit, opens, balanced, closes⟩

/-- **Each closing bracket was opened** when nowhere more brackets close than open. -/
theorem EachOpened.of_nonneg (h : ∀ us, us <+: ts → 0 ≤ openBrackets us) : EachOpened ts := by
  rintro before closing after rfl closes
  have hclosing : before ++ [closing] <+: before ++ closing :: after := ⟨after, by simp⟩
  have hnonneg := h _ hclosing
  rw [openBrackets_append, openBrackets_of_close closes] at hnonneg
  obtain ⟨us, opening, opens, inside, hsplit, balanced⟩ :=
    exists_innermostOpen ⟨before, List.suffix_rfl, by omega⟩
  exact ⟨us, opening, inside, hsplit, opens, balanced, closes⟩

/-- No bracket is open after balanced tokens. -/
theorem Balanced.not_innermostOpen (h : Balanced ts) : ¬ InnermostOpen ts us opening := by
  rintro ⟨opens, inside, rfl, balanced⟩
  have hbefore := h.nonneg us (List.prefix_append _ _)
  have hsum := h.closed
  rw [openBrackets_append, openBrackets_cons, openBrackets_of_open opens, balanced.closed] at hsum
  omega

/-- Nothing opened a bracket that closes after balanced tokens. -/
theorem Balanced.not_wasOpened (h : Balanced ts) : ¬ WasOpened ts closing := by
  rintro ⟨us, opening, inside, hsplit, opens, balanced, -⟩
  exact h.not_innermostOpen ⟨opens, inside, hsplit, balanced⟩

/-- **One bracket at most is the innermost.** -/
theorem InnermostOpen.unique {us' : List Token} {opening' : Token} (h : InnermostOpen ts us opening)
    (h' : InnermostOpen ts us' opening') : us = us' ∧ opening = opening' := by
  obtain ⟨opens, inside, hsplit, balanced⟩ := h
  obtain ⟨opens', inside', hsplit', balanced'⟩ := h'
  -- the one that comes first would be open after the other
  rcases exists_split (hsplit.symm.trans hsplit') with
    ⟨mid, hmid, -⟩ | ⟨hus, hopening, -⟩ | ⟨mid, -, hmid⟩
  · exact absurd ⟨opens, inside, hmid, balanced⟩ balanced'.not_innermostOpen
  · exact ⟨hus, hopening⟩
  · exact absurd ⟨opens', inside', hmid, balanced'⟩ balanced.not_innermostOpen

/-! ## Brackets that stay open -/

/-- Tokens in which no bracket is found to close a call close nowhere more than they open. -/
theorem nonneg_of_closing?_eq_none {depth count : Nat} (h : closing? depth count ts = none)
    (hus : us <+: ts) : 0 ≤ depth + openBrackets us := by
  induction ts generalizing depth count us with
  | nil =>
    rw [List.prefix_nil.mp hus, openBrackets_nil]
    omega
  | cons t ts ih =>
    rcases List.prefix_cons_iff.mp hus with rfl | ⟨us, rfl, hrest⟩
    · rw [openBrackets_nil]
      omega
    rw [openBrackets_cons]
    by_cases hopen : t.kind = .openParen
    · rw [closing?_open _ _ _ hopen] at h
      have hrest := ih h hrest
      rw [openBrackets_of_open hopen]
      omega
    by_cases hclose : t.kind = .closeParen
    · cases depth with
      | zero =>
        rw [closing?_close _ _ hclose] at h
        cases h
      | succ depth =>
        rw [closing?_close_succ _ _ _ hclose] at h
        have hrest := ih h hrest
        rw [openBrackets_of_close hclose]
        omega
    rw [openBrackets_of_kind rfl hopen hclose, Int.zero_add]
    by_cases hcomma : t.kind = .comma
    · rw [closing?_comma _ _ _ hcomma] at h
      exact ih h hrest
    · rw [closing?_other _ _ _ (by simp [hopen, hclose, hcomma])] at h
      exact ih h hrest

/-- **A bracket that none is found to close** is not closed. -/
theorem not_isClosed (h : closing? 0 1 after = none) : ¬ IsClosed opening after := by
  rintro ⟨inside, closing, rest, rfl, -, balanced, closes⟩
  have hclosing : inside ++ [closing] <+: inside ++ closing :: rest := ⟨rest, by simp⟩
  have hnonneg := nonneg_of_closing?_eq_none h hclosing
  rw [openBrackets_append, balanced.closed, openBrackets_of_close closes] at hnonneg
  omega

end Counting

/-! ## Names before brackets -/

/-- Tokens **end with a name** of a function. -/
def EndsWithName (ts : List Token) : Prop := ∃ name ∈ ts.getLast?, name.kind = .function

/-- Tokens end with a name when the last one is a name. -/
@[simp] theorem endsWithName_concat (ts : List Token) {t : Token} :
    EndsWithName (ts ++ [t]) ↔ t.kind = .function := by
  simp [EndsWithName]

/-- The name at the end is in the second part or ends the first one. -/
theorem EndsWithName.of_append {ts us : List Token} (h : EndsWithName (ts ++ us)) :
    EndsWithName us ∨ EndsWithName ts := by
  obtain ⟨name, hlast, kind⟩ := h
  rw [List.getLast?_append] at hlast
  rcases Option.or_eq_some_iff.mp hlast with hlast | ⟨-, hlast⟩
  · exact .inl ⟨name, hlast, kind⟩
  · exact .inr ⟨name, hlast, kind⟩

/-- After every name among some tokens a bracket opens, and no name comes last. -/
structure NamesOpen (ts : List Token) : Prop where
  chain : ts.IsChain fun t u => t.kind = .function → u.kind = .openParen
  ends : ¬ EndsWithName ts

namespace NamesOpen

variable {ts us : List Token} {t : Token}

/-- A token that is no name. -/
theorem single (h : t.kind ≠ .function) : NamesOpen [t] :=
  ⟨.singleton t, fun hname => h ((endsWithName_concat []).mp hname)⟩

/-- Names open brackets in both parts, and so in the whole. -/
theorem append (h : NamesOpen ts) (hu : NamesOpen us) : NamesOpen (ts ++ us) := by
  refine ⟨List.isChain_append.mpr ⟨h.chain, hu.chain, ?_⟩, ?_⟩
  · intro x hx y _ hname
    exact absurd ⟨x, hx, hname⟩ h.ends
  · exact fun hname => hname.of_append.elim hu.ends h.ends

/-- A name goes before a bracket. -/
theorem name {opening : Token} (opens : opening.kind = .openParen) (h : NamesOpen (opening :: ts)) :
    NamesOpen (t :: opening :: ts) := by
  refine ⟨List.isChain_cons_cons.mpr ⟨fun _ => opens, h.chain⟩, ?_⟩
  rintro ⟨name, hlast, kind⟩
  rw [List.getLast?_cons_cons] at hlast
  exact h.ends ⟨name, hlast, kind⟩

/-- What stands before another token than a bracket does not end with a name. -/
theorem not_endsWithName (h : NamesOpen (ts ++ t :: us)) (other : t.kind ≠ .openParen) :
    ¬ EndsWithName ts := by
  rintro ⟨name, hlast, kind⟩
  obtain ⟨-, -, hnext⟩ := List.isChain_append.mp h.chain
  exact other (hnext name hlast t rfl kind)

end NamesOpen

/-- **In a phrase a bracket opens after every name.** -/
theorem Derives.namesOpen {p : Phrase} {ts : List Token} (h : Derives p ts) : NamesOpen ts := by
  induction h with
  | number kind => exact .single (by simp [kind])
  | constant kind _ => exact .single (by simp [kind])
  | @group opening closing ts opens _ closes ih =>
    exact (NamesOpen.single (t := opening) (by simp [opens])).append
      (ih.append (.single (by simp [closes])))
  | @call name opening closing f count ts kind _ opens _ closes _ ih =>
    have hgroup := (NamesOpen.single (t := opening) (by simp [opens])).append
      (ih.append (.single (t := closing) (by simp [closes])))
    exact hgroup.name opens
  | factorial _ kind ih => exact ih.append (.single (by simp [kind]))
  | @sign s ts kind _ ih =>
    have hs : s.kind ≠ .function := by
      intro hs
      rw [hs] at kind
      exact absurd kind (by decide)
    exact (NamesOpen.single hs).append ih
  | @operation ls rs t op _ kind _ ihl ihr =>
    have ht : t.kind ≠ .function := by
      intro ht
      rw [ht] at kind
      cases kind
    exact ihl.append ((NamesOpen.single ht).append ihr)
  | comma _ kind _ ihl ihr => exact ihl.append ((NamesOpen.single (by simp [kind])).append ihr)
  | primary _ ih => exact ih
  | factor _ ih => exact ih
  | operand _ ih => exact ih
  | argument _ ih => exact ih

end Reckoner
