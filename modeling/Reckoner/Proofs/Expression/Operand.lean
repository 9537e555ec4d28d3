import Reckoner.Proofs.Expression.Context

/-! # The operand that comes first

Where an operand ends can be told from the tokens alone: its brackets are closed, no operand is due, and no
mark of the factorial is next. No place before its end is like that. So tokens begin with one operand at
most that no mark of the factorial follows.

* **`Balanced`** — tokens whose brackets are closed, and closed after they open.
* **`Derives.factorial_of_ends`** — where else in an operand it could end, its marks go on.
* **`FirstOperand`** — the operand that tokens begin with, and the token after it; there is one at most
  (`FirstOperand.unique`). -/

namespace Reckoner

/-! ## Balanced brackets -/

/-- Tokens are **balanced** when as many brackets close as open, and none closes before it opens. -/
structure Balanced (ts : List Token) : Prop where
  closed : openBrackets ts = 0
  nonneg : ∀ before, before <+: ts → 0 ≤ openBrackets before

namespace Balanced

variable {ts us : List Token} {t opening closing : Token}

/-- A token that is no bracket. -/
theorem single (h : openBrackets [t] = 0) : Balanced [t] := by
  refine ⟨h, fun before hb => ?_⟩
  rcases List.prefix_cons_iff.mp hb with rfl | ⟨inner, rfl, hinner⟩
  · exact Int.le_refl 0
  · rw [List.prefix_nil.mp hinner]
    exact Int.le_of_eq h.symm

/-- Two balanced parts. -/
theorem append (h : Balanced ts) (hu : Balanced us) : Balanced (ts ++ us) := by
  refine ⟨by rw [openBrackets_append, h.closed, hu.closed]; rfl, ?_⟩
  rintro before ⟨rest, hsplit⟩
  rcases List.append_eq_append_iff.mp hsplit with ⟨mid, rfl, -⟩ | ⟨mid, rfl, hmid⟩
  · exact h.nonneg before (List.prefix_append before mid)
  · rw [openBrackets_append, h.closed, Int.zero_add]
    exact hu.nonneg mid ⟨rest, hmid.symm⟩

/-- A bracket that has opened stays open up to the one that closes it. -/
theorem openBrackets_pos (h : Balanced ts) (opens : opening.kind = .openParen) {before : List Token}
    (hb : before <+: ts) : 0 < openBrackets (opening :: before) := by
  have hinner := h.nonneg before hb
  rw [openBrackets_cons, openBrackets_of_open opens]
  omega

/-- Balanced tokens in brackets. -/
theorem bracketed (h : Balanced ts) (opens : opening.kind = .openParen)
    (closes : closing.kind = .closeParen) : Balanced (opening :: (ts ++ [closing])) := by
  have hclosed : openBrackets (opening :: (ts ++ [closing])) = 0 := by
    rw [openBrackets_cons, openBrackets_append, openBrackets_of_open opens, h.closed,
      openBrackets_of_close closes]
    rfl
  refine ⟨hclosed, fun before hb => ?_⟩
  rcases List.prefix_cons_iff.mp hb with rfl | ⟨inner, rfl, hinner⟩
  · exact Int.le_refl 0
  · rcases List.prefix_concat_iff.mp hinner with rfl | hinner
    · exact Int.le_of_eq hclosed.symm
    · exact Int.le_of_lt (h.openBrackets_pos opens hinner)

end Balanced

/-- **Phrases are balanced.** -/
theorem Derives.balanced {p : Phrase} {ts : List Token} (h : Derives p ts) : Balanced ts := by
  induction h with
  | number kind => exact .single (openBrackets_of_kind kind (by decide) (by decide))
  | constant kind _ => exact .single (openBrackets_of_kind kind (by decide) (by decide))
  | group opens _ closes ih => exact ih.bracketed opens closes
  | @call name opening closing f count ts kind _ opens _ closes _ ih =>
    have hname := Balanced.single (openBrackets_of_kind kind (by decide) (by decide))
    exact hname.append (ih.bracketed opens closes)
  | factorial _ kind ih =>
    exact ih.append (.single (openBrackets_of_kind kind (by decide) (by decide)))
  | sign kind _ ih =>
    obtain ⟨negates, hsign⟩ := TokenKind.mem_signs_iff.mp kind
    exact (Balanced.single (openBrackets_of_sign hsign)).append ih
  | operation _ kind _ ihl ihr =>
    exact ihl.append ((Balanced.single (openBrackets_of_operator kind)).append ihr)
  | comma _ kind _ ihl ihr =>
    have hcomma := Balanced.single (openBrackets_of_kind kind (by decide) (by decide))
    exact ihl.append (hcomma.append ihr)
  | primary _ ih => exact ih
  | factor _ ih => exact ih
  | operand _ ih => exact ih
  | argument _ ih => exact ih

/-! ## The end of an operand -/

/-- Tokens before the last one that are followed by another are before it. -/
theorem prefix_of_split_concat {ts before after : List Token} {a t : Token}
    (h : ts ++ [a] = before ++ t :: after) : before <+: ts := by
  have hlength := congrArg List.length h
  simp only [List.length_append, List.length_cons, List.length_nil] at hlength
  exact List.prefix_of_prefix_length_le ⟨_, h.symm⟩ (List.prefix_append ts [a]) (by omega)

/-- **Where else an operand could end**, its brackets closed and no operand due, a mark of the factorial is
next. -/
theorem Derives.factorial_of_ends {p : Phrase} {ts : List Token} (h : Derives p ts)
    (hp : p ∈ [.primary, .factor, .operand]) {before after : List Token} {t : Token}
    (split : ts = before ++ t :: after) (closed : openBrackets before = 0)
    (done : operandDue before = false) : t.kind = .factorial := by
  have hne : before ≠ [] := by
    rintro rfl
    cases done
  -- a single token has no place inside
  have hsingle : ∀ {a : Token} {before after}, before ≠ [] → [a] ≠ before ++ t :: after := by
    intro a before after hne h
    obtain ⟨b, -, hnil⟩ := (exists_split_cons h).resolve_left fun heq => hne heq.2.1
    exact absurd hnil.symm (List.append_ne_nil_of_right_ne_nil b (List.cons_ne_nil t after))
  induction h generalizing before after with
  | number kind => exact absurd split (hsingle hne)
  | constant kind known => exact absurd split (hsingle hne)
  | group opens inner closes _ =>
    obtain ⟨b, rfl, inside⟩ := (exists_split_cons split).resolve_left fun heq => hne heq.2.1
    have hopen := inner.balanced.openBrackets_pos opens (prefix_of_split_concat inside)
    omega
  | @call name _ _ _ _ ts kind known opens inner closes arity _ =>
    obtain ⟨b, rfl, later⟩ := (exists_split_cons split).resolve_left fun heq => hne heq.2.1
    rcases exists_split_cons later with ⟨-, rfl, -⟩ | ⟨b, rfl, inside⟩
    · -- after the name comes the bracket
      rw [← List.nil_append [name], operandDue_concat, kind] at done
      cases done
    · have hopen := inner.balanced.openBrackets_pos opens (prefix_of_split_concat inside)
      rw [openBrackets_cons, openBrackets_of_kind kind (by decide) (by decide)] at closed
      omega
  | primary inner ih => exact ih (by decide) split closed done hne
  | factorial inner kind ih =>
    rcases exists_split split with ⟨after', -, inside⟩ | ⟨-, rfl, -⟩ | ⟨b, -, hnil⟩
    · exact ih (by decide) inside closed done hne
    · exact kind
    · exact absurd hnil.symm (List.append_ne_nil_of_right_ne_nil b (List.cons_ne_nil t after))
  | factor inner ih => exact ih (by decide) split closed done hne
  | @sign s ts kind inner ih =>
    obtain ⟨b, rfl, inside⟩ := (exists_split_cons split).resolve_left fun heq => hne heq.2.1
    obtain ⟨negates, hsign⟩ := TokenKind.mem_signs_iff.mp kind
    have hends : s.kind.endsOperand = false := by
      cases hk : s.kind <;> first | rfl | (rw [hk] at kind; exact absurd kind (by decide))
    have hdone : operandDue b = false := (operandDue_append_cons [] b hends).symm.trans done
    have hb : b ≠ [] := by
      rintro rfl
      cases hdone
    rw [openBrackets_cons, openBrackets_of_sign hsign, Int.zero_add] at closed
    exact ih (by decide) inside closed hdone hb
  | _ => simp at hp

/-- The **operand that tokens begin with**, and the token after it, which is no mark of the factorial. -/
structure FirstOperand (ts us : List Token) (next : Token) : Prop where
  operand : Derives .operand us
  split : ∃ rest, ts = us ++ next :: rest
  ends : next.kind ≠ .factorial

/-- After an operand no operand is due. -/
theorem Derives.operandDue_eq {ts : List Token} (h : Derives .operand ts) : operandDue ts = false := by
  obtain ⟨tree, htree⟩ := h.hasTree
  exact htree.operandDue_eq

/-- **Tokens begin with one operand at most.** -/
theorem FirstOperand.unique {ts us us' : List Token} {next next' : Token} (h : FirstOperand ts us next)
    (h' : FirstOperand ts us' next') : us = us' ∧ next = next' := by
  -- the longer one would go on with a mark of the factorial
  have hlonger : ∀ {us us' : List Token} {next next' : Token}, FirstOperand ts us next →
      FirstOperand ts us' next' → ∀ {t after}, us' ≠ us ++ t :: after := by
    rintro us us' next next' ⟨hus, ⟨rest, rfl⟩, hends⟩ ⟨hus', ⟨rest', hsplit⟩, -⟩ t after rfl
    rw [List.append_assoc, List.cons_append] at hsplit
    obtain ⟨rfl, -⟩ := List.cons.inj (List.append_cancel_left hsplit)
    exact hends (hus'.factorial_of_ends (by decide) rfl hus.openBrackets_eq_zero hus.operandDue_eq)
  obtain ⟨rest, hts⟩ := h.split
  obtain ⟨rest', hts'⟩ := h'.split
  rcases exists_split (hts.symm.trans hts') with ⟨_, -, hus⟩ | ⟨rfl, rfl, -⟩ | ⟨b, hus, -⟩
  · exact absurd hus (hlonger h' h)
  · exact ⟨rfl, rfl⟩
  · exact absurd hus (hlonger h h')

end Reckoner
