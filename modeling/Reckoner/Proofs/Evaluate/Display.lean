import Reckoner.Proofs.Binary64.Width
import Reckoner.Proofs.Evaluate.Containment
import Reckoner.Proofs.Postfix.Sources

/-! # What is shown evaluates to itself

The full text of a number is an expression: a numeral, with a sign before it when the number is negative.
The sign is an operation of its own, and gives the number back with its sign.

* **`assemble_signed_numeral`** — the program of a numeral with or without a sign.
* **`evaluate_display`** — the full text of a finite number evaluates to the number. -/

namespace Reckoner

/-- Signs and numbers open no bracket. -/
theorem nestsWithin_of_forall {limit : Int} {ts : List Token} (h : ∀ t ∈ ts, t.kind ≠ .openParen) :
    NestsWithin limit ts := by
  intro before t hbefore opens
  exact absurd opens (h t (hbefore.subset (List.mem_concat_self ..)))

/-- **The program of a numeral**, with or without a sign before it. -/
theorem assemble_signed_numeral [Numerics] {cs : List Char} (h : Numeral cs) (negative : Bool)
    (maxDepth : Int) :
    ∃ p, assemble (some (String.ofList (if negative then '-' :: cs else cs))) maxDepth = .ok p ∧
      p.run = .ok (if negative then -Binary64.ofNumeral cs else Binary64.ofNumeral cs) := by
  have hstop : ∀ x ∈ ([] : List Char).head?, isNameChar x = false := fun x hx =>
    absurd hx (Option.not_mem_none x)
  cases negative with
  | false =>
    have hstart : (Cursor.atStart (String.ofList cs)).rest = cs ++ [] := by
      rw [List.append_nil]
      exact String.toList_ofList
    obtain ⟨t, c, hpasses, hrest, hkind, hliteral⟩ := Cursor.exists_next_of_numeral h hstart hstop
    have hreads : Reads (.level 0) [t] [.number (Binary64.ofNumeral t.literal.toList) t.span] :=
      .level_of_le (Nat.zero_le 4) (.operand (.factor (.primary (.number hkind))))
    have hne : String.ofList cs ≠ "" := fun hempty =>
      h.beginsAlone.ne_nil (String.ofList_eq_empty_iff.mp hempty)
    have hnests : NestsWithin maxDepth [t] := nestsWithin_of_forall (by simp [hkind])
    refine ⟨_, assemble_of_passes hne hpasses hrest hreads hnests, ?_⟩
    rw [hreads.run_postorder, Tree.evaluate, hliteral]
    rfl
  | true =>
    have hstart : (Cursor.atStart (String.ofList ('-' :: cs))).rest = ['-'] ++ (cs ++ []) := by
      rw [List.append_nil]
      exact String.toList_ofList
    have hsign : (['-'], TokenKind.minus) ∈ lexemes := by decide
    obtain ⟨sign, c₁, hfirst, hrest₁, hminus⟩ :=
      Cursor.exists_next_of_lexeme hsign hstart (.inr (h.beginsAlone.joins_head []))
    obtain ⟨t, c, hsecond, hrest, hkind, hliteral⟩ := Cursor.exists_next_of_numeral h hrest₁ hstop
    have hnegates : sign.kind ∈ TokenKind.negations := by rw [hminus]; decide
    have hreads : Reads (.level 0) [sign, t]
        [.negate sign.offset (.number (Binary64.ofNumeral t.literal.toList) t.span)] :=
      .level_of_le (Nat.zero_le 4)
        (.operand (.negation hnegates (.factor (.primary (.number hkind)))))
    have hne : String.ofList ('-' :: cs) ≠ "" := fun hempty =>
      List.cons_ne_nil '-' cs (String.ofList_eq_empty_iff.mp hempty)
    have hnests : NestsWithin maxDepth [sign, t] := nestsWithin_of_forall (by simp [hkind, hminus])
    refine ⟨_, assemble_of_passes hne (hfirst.append hsecond) hrest hreads hnests, ?_⟩
    rw [hreads.run_postorder, Tree.evaluate, Tree.evaluate, hliteral]
    rfl

/-- The text of a finite number is a numeral for its magnitude, and a sign before it when the number is
negative. -/
theorem Binary64.exists_numeral_write (style : NumberStyle) {x : Binary64}
    (finite : x.isFinite = true) :
    ∃ cs, Numeral cs ∧
      x.write style shortestDigits = String.ofList (if x.isNegative then '-' :: cs else cs) ∧
      (if x.isNegative then -ofNumeral cs else ofNumeral cs) = x := by
  cases x with
  | nan s => cases finite
  | number s r hr =>
    have hmagnitude : (number false r hr).isFinite = true := finite
    obtain ⟨hnumeral, hvalue⟩ := numeral_write style hmagnitude rfl
    refine ⟨_, hnumeral, ?_, ?_⟩
    · cases s with
      | false => exact String.ofList_toList.symm
      | true =>
        have hminus : (number true r hr).write style shortestDigits =
            "-" ++ (number false r hr).write style shortestDigits := rfl
        rw [hminus, ← String.ofList_toList (s := "-" ++ _), String.toList_append]
        rfl
    · rw [hvalue]
      cases s with
      | false => rfl
      | true => exact neg_number false r hr

/-- **The full text of a finite number evaluates to the number**, with its sign, under any limits that
leave room for twenty-five characters. -/
theorem evaluate_display [Numerics] {x : Binary64} (finite : x.isFinite = true) {precision : Nat}
    (full : 17 ≤ precision) {limits : Limits} (room : 25 ≤ limits.maxLength) :
    evaluate limits (some (x.display precision)) = .ok x := by
  have htext : x.display precision =
      x.write { NumberStyle.roundTrip with keepsPointZero := false } shortestDigits := if_pos full
  have hlength : (x.write { NumberStyle.roundTrip with keepsPointZero := false }
      shortestDigits).length ≤ 25 :=
    Binary64.length_write_le (by decide) (by decide) finite
  obtain ⟨cs, hnumeral, hwrite, hvalue⟩ :=
    Binary64.exists_numeral_write { NumberStyle.roundTrip with keepsPointZero := false } finite
  obtain ⟨p, hp, hrun⟩ := assemble_signed_numeral hnumeral x.isNegative limits.maxDepth
  rw [← hwrite, ← htext] at hp
  rw [← htext] at hlength
  have hfits : limitLength (some (x.display precision)) limits.maxLength = .ok () := by
    rw [limitLength, if_neg]
    omega
  have hcompile : compile limits (some (x.display precision)) = .ok p := by
    rw [compile_eq_parse hfits]
    exact parse_eq_ok_iff.mpr hp
  rw [evaluate, hcompile]
  exact hrun.trans (congrArg _ hvalue)

/-- The sign of a zero is kept, under the default limits. -/
theorem evaluate_display_negative_zero :
    (Binary64.zero true).display 17 = "-0" ∧ evaluate {} (some "-0") = .ok (.zero true) :=
  ⟨by decide +kernel, evaluate_display (x := .zero true) (by decide) (Nat.le_refl 17) (by decide)⟩

end Reckoner
