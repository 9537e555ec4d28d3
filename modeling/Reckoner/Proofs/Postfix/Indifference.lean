import Reckoner.Proofs.Postfix.Text
import Reckoner.Proofs.Symbol.Numerics

/-! # What a run sees of the text

Programs with the same text run alike: they come to the same value, or fail for the same cause. The one
thing that the text does not tell is the sign of a NaN, and the one instruction that looks at it is a call
of `copySign` with a NaN for its second argument. Where the signs are the same as well, the runs are alike
with such calls too.

* **`Instruction.TakesSign`** — a call of `copySign` that finds a NaN to take the sign of.
* **`Instruction.execute_alike`, `execute_alike`** — all other instructions are indifferent to that sign.
* **`Program.run_alike`** — programs that are alike run alike.
* **`Program.text_tells`** — what the text tells about the instructions and the run. -/

namespace Reckoner

/-- Runs fail for the **same cause**, wherever that is. -/
def Failure.SameCause (e e' : Failure) : Prop := e.unplaced = e'.unplaced

/-! ## Instructions -/

namespace Instruction

/-- An instruction **takes the sign of a NaN** from a stack when it is a call of `copySign` and a NaN is on
top. -/
inductive TakesSign : Instruction → Stack → Prop
  | intro {y : Binary64} (isNaN : y.isNaN = true) (span : Span) (x : Binary64) (below : Stack) :
      TakesSign (.call (.binary .copySign) 2 span) (y :: x :: below)

variable {i j : Instruction} {stack stack' : Stack}

/-- The second of its arguments is on top of the stack. -/
theorem takesSign_of_arguments {n : Nat} {x y : Binary64} (enough : n ≤ stack.length)
    (arguments : (stack.take n).reverse = [x, y]) (isNaN : y.isNaN = true) (span : Span) :
    TakesSign (.call (.binary .copySign) n span) stack := by
  have htake : stack.take n = [y, x] := by
    rw [← List.reverse_reverse (stack.take n), arguments]
    rfl
  have hn : n = 2 := by
    have hlength := congrArg List.length htake
    rw [List.length_take, Nat.min_eq_left enough] at hlength
    exact hlength
  subst hn
  rw [← List.take_append_drop 2 stack, htake]
  exact .intro isNaN span x (stack.drop 2)

/-- **A call does not see the signs of NaNs**, unless it takes one. -/
theorem executeCall_alike [Numerics] [LawfulNumerics] (source source' : String) (f : Function)
    (n : Nat) (span span' : Span)
    (h : List.Forall₂ Binary64.Alike stack stack') (unsigned : ¬ TakesSign (.call f n span) stack) :
    Corresponds Failure.SameCause (List.Forall₂ Binary64.Alike)
      (executeCall source f n span stack) (executeCall source' f n span' stack') := by
  have hlength : stack.length = stack'.length := h.length_eq
  rw [executeCall, executeCall, ← hlength]
  split
  · exact .failure (Failure.unplaced_ofFault rfl)
  · split
    · exact .failure (Failure.unplaced_ofFault rfl)
    · next enough =>
      have harguments : List.Forall₂ Binary64.Alike (stack.take n).reverse (stack'.take n).reverse :=
        List.rel_reverse (List.forall₂_take n h)
      have hunsigned : ∀ x y, f = .binary .copySign → (stack.take n).reverse = [x, y] →
          y.isNaN = false := by
        rintro x y rfl hargs
        refine Bool.eq_false_iff.mpr fun hnan => unsigned ?_
        exact takesSign_of_arguments (Nat.le_of_not_lt enough) hargs hnan span
      have hvalue := f.apply_alike harguments hunsigned
      generalize f.apply (stack.take n).reverse = result, f.apply (stack'.take n).reverse = result'
        at hvalue
      cases hvalue with
      | value related => exact .value (.cons related (List.forall₂_drop n h))
      | @failure e e' related =>
        obtain rfl : e = e' := related
        cases e <;> exact .failure rfl

/-- **Instructions that are alike** have effects that are alike, unless they take the sign of a NaN. -/
theorem execute_alike [Numerics] [LawfulNumerics] (h : i.Alike j)
    (hstack : List.Forall₂ Binary64.Alike stack stack')
    (unsigned : ¬ i.TakesSign stack) (source source' : String) :
    Corresponds Failure.SameCause (List.Forall₂ Binary64.Alike)
      (i.execute source stack) (j.execute source' stack') := by
  cases h with
  | number alike span span' => exact .value (.cons alike hstack)
  | negate offset offset' =>
    cases hstack with
    | nil => exact .failure (Failure.unplaced_ofFault rfl)
    | cons first rest => exact .value (.cons first.neg rest)
  | factorial offset offset' =>
    cases hstack with
    | nil => exact .failure (Failure.unplaced_ofFault rfl)
    | cons first rest => exact .value (.cons first.factorial rest)
  | operation op offset offset' =>
    cases hstack with
    | nil => exact .failure (Failure.unplaced_ofFault rfl)
    | cons last rest =>
      cases rest with
      | nil => exact .failure (Failure.unplaced_ofFault rfl)
      | cons first below => exact .value (.cons (op.apply_alike first last) below)
  | call f n span span' => exact executeCall_alike source source' f n span span' hstack unsigned

end Instruction

/-! ## Programs -/

/-- **Sequences of instructions that are alike** have effects that are alike, unless one of those that are
reached takes the sign of a NaN. -/
theorem execute_alike [Numerics] [LawfulNumerics] (source source' : String) {is js : List Instruction}
    (h : List.Forall₂ Instruction.Alike is js) {stack stack' : Stack}
    (hstack : List.Forall₂ Binary64.Alike stack stack')
    (unsigned : ∀ before i after reached, is = before ++ i :: after →
      execute source before stack = .ok reached → ¬ i.TakesSign reached) :
    Corresponds Failure.SameCause (List.Forall₂ Binary64.Alike)
      (execute source is stack) (execute source' js stack') := by
  induction h generalizing stack stack' with
  | nil => exact .value hstack
  | @cons i j is js first rest ih =>
    have hfirst := Instruction.execute_alike first hstack (unsigned [] i is stack rfl rfl) source source'
    rw [execute, execute]
    generalize hi : i.execute source stack = result, j.execute source' stack' = result' at hfirst
    cases hfirst with
    | failure related => exact .failure related
    | @value middle middle' related =>
      refine ih related ?_
      intro before k after reached hsplit hreached
      refine unsigned (i :: before) k after reached (by rw [hsplit, List.cons_append]) ?_
      rw [execute, hi]
      exact hreached

namespace Program

/-- A program **takes the sign of a NaN** when one of the instructions that its run reaches does. -/
def TakesSign [Numerics] (p : Program) : Prop :=
  ∃ before i after stack, p.instructions = before ++ i :: after ∧
    Reckoner.execute p.source before [] = .ok stack ∧ i.TakesSign stack

variable {p q : Program}

/-- Without calls of `copySign` no sign is taken. -/
theorem not_takesSign [Numerics]
    (h : ∀ span, Instruction.call (.binary .copySign) 2 span ∉ p.instructions) :
    ¬ p.TakesSign := by
  rintro ⟨before, i, after, stack, hsplit, -, htakes⟩
  cases htakes with
  | intro isNaN span x below =>
    refine h span ?_
    rw [hsplit]
    exact List.mem_append_right before (List.mem_cons_self ..)

/-- **Programs that are alike** run alike, unless the run takes the sign of a NaN. -/
theorem run_alike [Numerics] [LawfulNumerics]
    (h : List.Forall₂ Instruction.Alike p.instructions q.instructions)
    (unsigned : ¬ p.TakesSign) : Corresponds Failure.SameCause Binary64.Alike p.run q.run := by
  have hexecute := execute_alike p.source q.source h .nil
    fun before i after reached hsplit hreached htakes =>
      unsigned ⟨before, i, after, reached, hsplit, hreached, htakes⟩
  rw [run, run]
  generalize Reckoner.execute p.source p.instructions [] = result,
    Reckoner.execute q.source q.instructions [] = result' at hexecute
  cases hexecute with
  | failure related => exact .failure related
  | value related =>
    -- the stacks are of the same height
    cases related with
    | nil => exact .failure rfl
    | cons first rest =>
      cases rest with
      | nil => exact .value first
      | cons second others =>
        have hheight := others.length_eq
        exact .failure
          (congrArg (fun n => Failure.fault (.unplaced (.leftover (n + 1 + 1)) "")) hheight)

/-- Programs that are alike are the same but for their places if the NaNs have the same signs. -/
theorem map_unplaced_eq {is js : List Instruction} (h : List.Forall₂ Instruction.Alike is js)
    (signs : ∀ (k : Nat) s span t span', is[k]? = some (.number (.nan s) span) →
      js[k]? = some (.number (.nan t) span') → s = t) :
    js.map Instruction.unplaced = is.map Instruction.unplaced := by
  induction h with
  | nil => rfl
  | @cons i j is js first rest ih =>
    have hfirst : j.unplaced = i.unplaced := by
      cases first with
      | number alike span span' =>
        cases alike with
        | nan s t => rw [signs 0 s span t span' rfl rfl]; rfl
        | number s r hr => rfl
      | _ => rfl
    rw [List.map_cons, List.map_cons, hfirst, ih fun k s span t span' => signs (k + 1) s span t span']

/-- **The text of a program tells** its instructions, and how it runs, if it can be written at all:
neither the text nor the words of a program with an arity of too many digits can. The words of the
instructions are found at the spaces. Programs with the same text have the same instructions, one by one,
but for their places and the NaNs; and these are the only differences that the text hides. So if the NaNs
in them are the same, they come to the same value, or fail for the same cause. If not, they still come to
the same value or both to a NaN, or fail for the same cause, unless the run reaches a call of `copySign`
with a NaN for its second argument. -/
theorem text_tells [Numerics] [LawfulNumerics] (hp : p.Known) (hq : q.Known) :
    (p.Writable → p.written = .ok p.text ∧ p.listed = .ok (p.instructions.map Instruction.text) ∧
      (p.instructions ≠ [] →
        (p.text.toList.splitOn ' ').map String.ofList = p.instructions.map Instruction.text)) ∧
    (¬ p.Writable → p.written = .error .digitsWritten ∧ p.listed = .error .digitsWritten) ∧
    (p.SameText q ↔
      p.Writable ∧ List.Forall₂ Instruction.Alike p.instructions q.instructions) ∧
    (p.SameText q →
      (∀ (k : Nat) s span t span', p.instructions[k]? = some (.number (.nan s) span) →
        q.instructions[k]? = some (.number (.nan t) span') → s = t) →
      q.run.mapError Failure.unplaced = p.run.mapError Failure.unplaced) ∧
    (p.SameText q → ¬ p.TakesSign → Corresponds Failure.SameCause Binary64.Alike p.run q.run) := by
  refine ⟨fun h => ⟨written_of_writable h, listed_of_writable h, splitOn_text hp⟩,
    fun h => ⟨written_of_not_writable h, listed_of_not_writable h⟩, sameText_iff hp hq,
    fun h signs => ?_, fun h unsigned => ?_⟩
  · exact run_of_unplaced (map_unplaced_eq ((sameText_iff hp hq).mp h).2 signs)
  · exact run_alike ((sameText_iff hp hq).mp h).2 unsigned

/-- The greater of a NaN and a two. The text tells neither the places nor the sign of the NaN, and nor
does the value. -/
theorem text_tells_max : ∃ p q : Program,
    p = ⟨"max(nan,2)", [.number (.nan false) ⟨4, 3⟩, .number 2 ⟨8, 1⟩, .call (.reducer .max) 2 ⟨0, 10⟩]⟩ ∧
    q = ⟨"", [.number (.nan true) ⟨0, 0⟩, .number 2 ⟨0, 0⟩, .call (.reducer .max) 2 ⟨0, 0⟩]⟩ ∧
    p.written = .ok p.text ∧ p.SameText q ∧
    (p.text.toList.splitOn ' ').map String.ofList = ["nan", "2.0", "max/2"] ∧
    Corresponds Failure.SameCause Binary64.Alike p.run q.run ∧
    ({ p with source := "" } : Program).run.mapError Failure.unplaced =
      p.run.mapError Failure.unplaced := by
  generalize hp : (⟨"max(nan,2)", [.number (.nan false) ⟨4, 3⟩, .number 2 ⟨8, 1⟩,
    .call (.reducer .max) 2 ⟨0, 10⟩]⟩ : Program) = p
  generalize hq : (⟨"", [.number (.nan true) ⟨0, 0⟩, .number 2 ⟨0, 0⟩,
    .call (.reducer .max) 2 ⟨0, 0⟩]⟩ : Program) = q
  have hknown : p.Known := by rw [← hp]; decide
  have hwritable : p.Writable := by rw [← hp]; decide +kernel
  obtain ⟨hwrites, -, hsame, -, hrun⟩ := text_tells hknown (q := q) (by rw [← hq]; decide)
  obtain ⟨-, -, hself, hmoved, -⟩ := text_tells hknown (q := { p with source := "" }) hknown
  obtain ⟨hwritten, -, hwords⟩ := hwrites hwritable
  have halike : List.Forall₂ Instruction.Alike p.instructions q.instructions := by
    rw [← hp, ← hq]
    exact .cons (.number (.nan false true) _ _) (.cons (.number (.refl 2) _ _)
      (.cons (.call _ _ _ _) .nil))
  have hsameText : p.SameText q := hsame.mpr ⟨hwritable, halike⟩
  refine ⟨p, q, rfl, rfl, hwritten, hsameText, ?_, hrun hsameText ?_, hmoved ?_ ?_⟩
  · rw [hwords (by rw [← hp]; exact List.cons_ne_nil _ _), ← hp]
    decide +kernel
  · refine not_takesSign fun span hmem => ?_
    rw [← hp] at hmem
    simp at hmem
  · exact ⟨p.text, hwritten, hwritten⟩
  · intro k s span t span' hs ht
    rw [hs] at ht
    cases ht
    rfl

/-- The program `1.0 nan copysign/2`, with a NaN of either sign. -/
def copyingSign (negative : Bool) : Program :=
  ⟨"", [.number 1 ⟨0, 0⟩, .number (.nan negative) ⟨0, 0⟩, .call (.binary .copySign) 2 ⟨0, 0⟩]⟩

/-- The text does not tell which of the two programs it is, but their values are different. -/
theorem run_copyingSign :
    (copyingSign false).Known ∧ (copyingSign true).Known ∧
      (copyingSign false).written = .ok "1.0 nan copysign/2" ∧
      (copyingSign true).written = .ok "1.0 nan copysign/2" ∧
      (copyingSign false).run = .ok 1 ∧ (copyingSign true).run = .ok (-1) ∧
      ¬ Corresponds Failure.SameCause Binary64.Alike (copyingSign false).run (copyingSign true).run := by
  have hpositive : (copyingSign false).run = .ok 1 := by decide +kernel
  have hnegative : (copyingSign true).run = .ok (-1) := by decide +kernel
  refine ⟨by decide, by decide, by decide +kernel, by decide +kernel, hpositive, hnegative, ?_⟩
  rw [hpositive, hnegative]
  rintro ⟨⟨related⟩⟩

end Program

end Reckoner
