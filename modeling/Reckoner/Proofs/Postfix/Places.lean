import Mathlib.Data.List.Nodup
import Mathlib.Tactic.Choose
import Reckoner.Proofs.Expression.Marks
import Reckoner.Proofs.Postfix.Acceptance
import Reckoner.Proofs.Token.Tiling

/-! # The tokens of a program

Assembling loses no token and repeats none, however far an operator travels on the stack before it
comes out.

* **`Places`** — a place among the tokens for every instruction, as the instruction says itself.
* **`exists_places`** — instructions that are written at tokens, in whatever order, have places.
* **`assemble_places`** — the instructions of every program have places among the tokens of its
  expression. -/

namespace Reckoner

/-- Instructions have their **places** among tokens: these are all tokens that stand for an
instruction. -/
structure Places (is : List Instruction) (ts : List Token) (place : Fin is.length → Fin ts.length) :
    Prop where
  /-- The token at the offset of an instruction is the one at its place. -/
  offset : ∀ k j, (ts[j].offset : Int) = is[k].span.offset ↔ j = place k
  /-- No two instructions have one place. -/
  injective : ∀ k l, place k = place l → k = l
  /-- The places are the marked tokens, -/
  marked : ∀ j, (∃ k, place k = j) ↔ ts[j].kind.marked (operandDue (ts.take j)) = true
  /-- and all other tokens are bare. -/
  bare : ∀ j, (¬ ∃ k, place k = j) ↔ ts[j].kind.bare (operandDue (ts.take j)) = true
  /-- The instruction is the one that the token stands for. -/
  stands : ∀ k, ts[place k].instruction? (operandDue (ts.take (place k))) (ts.drop (place k + 1)) =
    some is[k]
  /-- Numbers have the order of their tokens. -/
  ordered : ∀ k l, k < l → is[k].isNumber = true → is[l].isNumber = true → place k < place l

section Writing

variable {ts : List Token} {is js : List Instruction}

/-- Tokens one after the other are told apart by their offsets. -/
theorem eq_of_offset_eq (hoffsets : ts.Pairwise fun t u => t.offset < u.offset) {i j : Fin ts.length}
    (h : ts[i].offset = ts[j].offset) : i = j := by
  have hlt := List.pairwise_iff_getElem.mp hoffsets
  rcases Nat.lt_trichotomy i j with hless | hsame | hmore
  · exact absurd h (Nat.ne_of_lt (hlt i j i.2 j.2 hless))
  · exact Fin.ext hsame
  · exact absurd h.symm (Nat.ne_of_lt (hlt j i j.2 i.2 hmore))

/-- Instructions that are written at such tokens are found in the order in which they are written. -/
theorem Writes.pairwise_offset {due : Bool} (h : Writes due ts js)
    (hoffsets : ts.Pairwise fun t u => t.offset < u.offset) :
    js.Pairwise fun i j => i.span.offset < j.span.offset := by
  have htokens : (ts.map fun t => (t.offset : Int)).Pairwise (· < ·) :=
    List.pairwise_map.mpr (hoffsets.imp fun h => Int.ofNat_lt.mpr h)
  exact List.pairwise_map.mp (htokens.sublist h.sublist_offset)

/-- A token is bare or writes an instruction, wherever it is. -/
theorem Writes.bare_or_stands (h : Writes true ts js) (j : Fin ts.length) :
    ts[j].kind.bare (operandDue (ts.take j)) = true ∨
      ∃ i ∈ js, ts[j].instruction? (operandDue (ts.take j)) (ts.drop (j + 1)) = some i := by
  have hsplit : ts = ts.take j ++ ts[j] :: ts.drop (j + 1) := by
    rw [Fin.getElem_fin, List.getElem_cons_drop, List.take_append_drop]
  rw [hsplit, ← operandDue_nil] at h
  exact h.of_mem_tokens

/-- Every instruction stands for a token. -/
theorem Writes.exists_stands (h : Writes true ts js) {i : Instruction} (hi : i ∈ js) :
    ∃ j : Fin ts.length,
      ts[j].instruction? (operandDue (ts.take j)) (ts.drop (j + 1)) = some i := by
  rw [← operandDue_nil] at h
  obtain ⟨mid, t, after, rfl, hstands⟩ := h.exists_of_mem hi
  exact ⟨⟨mid.length, by simp⟩, by simpa using hstands⟩

/-- **Instructions that are written at tokens have places**, in whatever order they are. -/
theorem exists_places (hwrites : Writes true ts js) (hperm : js.Perm is)
    (hnumbers : js.filter Instruction.isNumber = is.filter Instruction.isNumber)
    (hoffsets : ts.Pairwise fun t u => t.offset < u.offset) : ∃ place, Places is ts place := by
  have hstrict := hwrites.pairwise_offset hoffsets
  have hnodup : is.Nodup := by
    refine hperm.nodup (hstrict.imp ?_)
    rintro i j hij rfl
    exact absurd hij (Int.lt_irrefl _)
  have hfind : ∀ k : Fin is.length, ∃ j : Fin ts.length,
      ts[j].instruction? (operandDue (ts.take j)) (ts.drop (j + 1)) = some is[k] :=
    fun k => hwrites.exists_stands (hperm.mem_iff.mpr (is.getElem_mem k.2))
  choose place hplace using hfind
  have hoffset : ∀ k j, (ts[j].offset : Int) = is[k].span.offset ↔ j = place k := by
    intro k j
    rw [(Token.of_instruction?_eq_some (hplace k)).2, Int.ofNat_inj]
    exact ⟨eq_of_offset_eq hoffsets, fun h => by rw [h]⟩
  -- a token that writes an instruction is the place of that instruction
  have hcases : ∀ j, ts[j].kind.bare (operandDue (ts.take j)) = true ∨ ∃ k, place k = j := by
    intro j
    rcases hwrites.bare_or_stands j with hbare | ⟨i, hi, hstands⟩
    · exact .inl hbare
    · obtain ⟨k, hk, rfl⟩ := List.getElem_of_mem (hperm.mem_iff.mp hi)
      have hj := (hoffset ⟨k, hk⟩ j).mp (Token.of_instruction?_eq_some hstands).2.symm
      exact .inr ⟨⟨k, hk⟩, hj.symm⟩
  have hmarked : ∀ j, (∃ k, place k = j) → ts[j].kind.marked (operandDue (ts.take j)) = true := by
    rintro _ ⟨k, rfl⟩
    exact (Token.of_instruction?_eq_some (hplace k)).1
  have hbare : ∀ j : Fin ts.length, ts[j].kind.bare (operandDue (ts.take j)) = true →
      ¬ ts[j].kind.marked (operandDue (ts.take j)) = true := by
    intro j hj
    rw [TokenKind.marked_eq_false_of_bare hj]
    exact Bool.false_ne_true
  refine ⟨place, hoffset, ?_, ?_, ?_, hplace, ?_⟩
  · intro k l hkl
    have hsame : is[k] = is[l] := by
      have hk := hplace k
      rw [hkl, hplace l] at hk
      exact (Option.some.inj hk).symm
    exact Fin.ext ((hnodup.getElem_inj_iff).mp hsame)
  · exact fun j => ⟨hmarked j, fun hj => (hcases j).resolve_left fun h => hbare j h hj⟩
  · exact fun j => ⟨(hcases j).resolve_right, fun hj h => hbare j hj (hmarked j h)⟩
  · -- among the numbers, the order of the instructions is that of the written ones
    have hordered := (hstrict.sublist List.filter_sublist : (js.filter Instruction.isNumber).Pairwise _)
    rw [hnumbers, List.pairwise_filter, List.pairwise_iff_getElem] at hordered
    intro k l hkl hk hl
    have hless : is[k].span.offset < is[l].span.offset := hordered k l k.2 l.2 hkl hk hl
    rw [← (hoffset k (place k)).mpr rfl, ← (hoffset l (place l)).mpr rfl, Int.ofNat_lt] at hless
    rcases Nat.lt_trichotomy (place k) (place l) with hlt | hsame | hgt
    · exact hlt
    · rw [Fin.ext hsame] at hless
      exact absurd hless (Nat.lt_irrefl _)
    · have hback := List.pairwise_iff_getElem.mp hoffsets _ _ (place l).2 (place k).2 hgt
      exact absurd hless (Nat.lt_asymm hback)

end Writing

/-- **No token is lost or repeated by assembling.** The expression of a program can be split into
tokens, none of them illegal, and the instructions of the program have places among them: the offset of
an instruction is that of a token that stands for it, no two instructions have one token, and only
brackets, commas, signs that change nothing and the end token have none. -/
theorem assemble_places {source : Option String} {maxDepth : Int} {p : Program}
    (h : assemble source maxDepth = .ok p) :
    ∃ s ts, source = some s ∧ tokenize source = .ok ts ∧ (∀ t ∈ ts, t.kind ≠ .illegal) ∧
      ∃ place, Places p.instructions ts place := by
  obtain ⟨s, ts, last, tree, rfl, htokens, hlast, -, htree, rfl⟩ := exists_tree_of_assemble h
  refine ⟨s, ts ++ [last], rfl, htokens, ?_, ?_⟩
  · rw [List.forall_mem_append]
    refine ⟨htree.derives.legal, List.forall_mem_singleton.mpr ?_⟩
    rw [hlast]
    decide
  · obtain ⟨js, hwrites, hperm, hnumbers⟩ := htree.writes hlast
    obtain ⟨s', c', -, -, hyields⟩ := tokenize_eq_ok_iff.mp htokens
    exact exists_places hwrites hperm hnumbers (hyields.pairwise_offset.imp And.left)

/-- The sign and the name come out after the arguments, and the operator comes out last. Seven of the
eleven tokens have an instruction. -/
theorem assemble_places_signed_call :
    ∃ p ts, assemble (some "-max(2,pi)+3!") 1 = .ok p ∧
      p.text = "2.0 3.141592653589793 max/2 neg 3.0 ! +" ∧
      tokenize (some "-max(2,pi)+3!") = .ok ts ∧ ts.length = 11 ∧
      ∃ place, Places p.instructions ts place := by
  have htext : ((assemble (some "-max(2,pi)+3!") 1).map Program.text).toOption =
      some "2.0 3.141592653589793 max/2 neg 3.0 ! +" := by
    decide +kernel
  have hcount : ((tokenize (some "-max(2,pi)+3!")).map List.length).toOption = some 11 := by
    decide +kernel
  cases h : assemble (some "-max(2,pi)+3!") 1 with
  | error f =>
    rw [h] at htext
    cases htext
  | ok p =>
    rw [h] at htext
    obtain ⟨s, ts, hs, htokens, -, hplaces⟩ := assemble_places h
    cases hs
    rw [htokens] at hcount
    exact ⟨p, ts, rfl, Option.some.inj htext, htokens, Option.some.inj hcount, hplaces⟩

end Reckoner
