import Mathlib.Data.List.Basic
import Reckoner.Elementary.Library
import Reckoner.Proofs.Postfix.Execution

/-! # What is below stays

A program works on the top of the stack. An instruction takes its operands from there, in the order in which
they were pushed, and puts its value in their place; it does not see what is below them. So a program that
runs on some stack runs in the same way when more values are below, and leaves these as they are.

* **`Instruction.Combines`** — the value that an instruction makes of its operands, from left to right.
* **`Instruction.execute_eq_ok_iff`** — an instruction puts that value in the place of the operands.
* **`execute_append_below`** — a program runs alike above other values.
* **`execute_flatten`** — programs of one value each, one after the other, push their values.
* **`execute_frame`** — all of this together. -/

namespace Reckoner

namespace Instruction

/-- An instruction **combines** its operands, from left to right, to a value. -/
inductive Combines [Numerics] : Instruction → List Binary64 → Binary64 → Prop
  | number (value : Binary64) (span : Span) : Combines (.number value span) [] value
  | negate (offset : Int) (x : Binary64) : Combines (.negate offset) [x] (-x)
  | operation (op : Operator) (offset : Int) (x y : Binary64) :
      Combines (.operation op offset) [x, y] (op.apply x y)
  | factorial (offset : Int) (x : Binary64) : Combines (.factorial offset) [x] x.factorial
  /-- A function has as many arguments as it takes, if their number is fixed, and may refuse them. -/
  | call {f : Function} {xs : List Binary64} {value : Binary64} (span : Span)
      (arity : ∀ n, f.arity? = some n → n = xs.length) (applies : f.apply xs = .ok value) :
      Combines (.call f xs.length span) xs value

variable {source : String} {i : Instruction} {stack stack' : Stack}

/-- A call that runs has taken its arguments off the stack, the last one first. -/
theorem executeCall_eq_ok_iff [Numerics] {f : Function} {n : Nat} {span : Span} :
    executeCall source f n span stack = .ok stack' ↔
      ∃ xs value below, (∀ m, f.arity? = some m → m = xs.length) ∧ f.apply xs = .ok value ∧
        xs.length = n ∧ stack = xs.reverse ++ below ∧ stack' = value :: below := by
  constructor
  · intro h
    rw [executeCall] at h
    split at h
    · cases h
    · next resolved =>
      split at h
      · cases h
      · next enough =>
        have hlength : (stack.take n).reverse.length = n := by
          rw [List.length_reverse, List.length_take, Nat.min_eq_left (Nat.le_of_not_lt enough)]
        cases happly : f.apply (stack.take n).reverse with
        | error reason =>
          rw [happly] at h
          cases reason <;> cases h
        | ok value =>
          rw [happly] at h
          cases h
          refine ⟨_, value, stack.drop n, fun m hm => ?_, happly, hlength, ?_, rfl⟩
          · rw [hlength]
            by_contra hne
            exact resolved (by rw [hm]; exact decide_eq_true hne)
          · rw [List.reverse_reverse, List.take_append_drop]
  · rintro ⟨xs, value, below, arity, applies, rfl, rfl, rfl⟩
    rw [Tree.executeCall_reverse source rfl (fun m hm => (arity m hm).symm), Tree.applyAt, applies]
    rfl

/-- **An instruction runs** exactly when it combines the values on top of the stack. Its value takes their
place, and what is below stays. -/
theorem execute_eq_ok_iff [Numerics] :
    i.execute source stack = .ok stack' ↔
      ∃ xs value below, i.Combines xs value ∧ stack = xs.reverse ++ below ∧
        stack' = value :: below := by
  constructor
  · intro h
    match i, stack, h with
    | .number value span, stack, h =>
      cases h
      exact ⟨[], value, stack, .number value span, rfl, rfl⟩
    | .negate offset, x :: below, h =>
      cases h
      exact ⟨[x], -x, below, .negate offset x, rfl, rfl⟩
    | .factorial offset, x :: below, h =>
      cases h
      exact ⟨[x], x.factorial, below, .factorial offset x, rfl, rfl⟩
    | .operation op offset, y :: x :: below, h =>
      cases h
      exact ⟨[x, y], op.apply x y, below, .operation op offset x y, rfl, rfl⟩
    | .call f n span, stack, h =>
      obtain ⟨xs, value, below, arity, applies, rfl, hstack, hstack'⟩ := executeCall_eq_ok_iff.mp h
      exact ⟨xs, value, below, .call span arity applies, hstack, hstack'⟩
  · rintro ⟨xs, value, below, combines, rfl, rfl⟩
    cases combines with
    | number => rfl
    | negate => rfl
    | operation => rfl
    | factorial => rfl
    | call span arity applies =>
      exact executeCall_eq_ok_iff.mpr ⟨xs, value, below, arity, applies, rfl, rfl, rfl⟩

/-- An instruction that runs does so above any other values. -/
theorem execute_append_below [Numerics] (h : i.execute source stack = .ok stack') (below : Stack) :
    i.execute source (stack ++ below) = .ok (stack' ++ below) := by
  obtain ⟨xs, value, rest, combines, rfl, rfl⟩ := execute_eq_ok_iff.mp h
  exact execute_eq_ok_iff.mpr ⟨xs, value, rest ++ below, combines, List.append_assoc .., rfl⟩

end Instruction

section Programs

variable {source : String} {is : List Instruction} {stack stack' : Stack}

/-- **A program that runs** does so above any other values, and leaves them as they are. -/
theorem execute_append_below [Numerics] (h : execute source is stack = .ok stack') (below : Stack) :
    execute source is (stack ++ below) = .ok (stack' ++ below) := by
  induction is generalizing stack with
  | nil =>
    cases h
    rfl
  | cons i is ih =>
    rw [execute] at h ⊢
    cases hfirst : i.execute source stack with
    | error e =>
      rw [hfirst] at h
      cases h
    | ok middle =>
      rw [hfirst] at h
      rw [Instruction.execute_append_below hfirst below]
      exact ih h

/-- A program of one value **pushes** it. -/
theorem execute_of_value [Numerics] {value : Binary64} (h : execute source is [] = .ok [value])
    (below : Stack) :
    execute source is below = .ok (value :: below) :=
  execute_append_below h below

/-- **Programs of one value each**, one after the other, push their values. -/
theorem execute_flatten [Numerics] {programs : List (List Instruction)} {values : List Binary64}
    (h : List.Forall₂ (fun is value => execute source is [] = .ok [value]) programs values)
    (below : Stack) : execute source programs.flatten below = .ok (values.reverse ++ below) := by
  induction h generalizing below with
  | nil => rfl
  | cons first rest ih =>
    rw [List.flatten_cons, execute_append, execute_of_value first below, List.reverse_cons,
      List.append_assoc]
    exact ih _

/-- An instruction after them **combines their values**. -/
theorem run_flatten_concat [Numerics] {programs : List (List Instruction)} {values : List Binary64}
    (h : List.Forall₂ (fun is value => execute source is [] = .ok [value]) programs values)
    {i : Instruction} {value : Binary64} (combines : i.Combines values value) :
    Program.run ⟨source, programs.flatten ++ [i]⟩ = .ok value := by
  have hlast : i.execute source (values.reverse ++ []) = .ok [value] :=
    Instruction.execute_eq_ok_iff.mpr ⟨values, value, [], combines, rfl, rfl⟩
  have hall : execute source (programs.flatten ++ [i]) [] = .ok [value] := by
    rw [execute_append, execute_flatten h []]
    show execute source [i] (values.reverse ++ []) = .ok [value]
    rw [execute, hlast]
    rfl
  rw [Program.run, hall]

end Programs

/-- **Programs work on the top of the stack.** An instruction runs exactly when the topmost values are
operands that it combines, from left to right; its value takes their place, and nothing below is read or
changed. So a program that runs on a stack runs in the same way on that stack above any other values, and
leaves these as they are; a program of one value pushes it, whatever is below. An instruction after programs
of one value each combines their values, and an operator after two programs is applied to the value of the
first and that of the second. -/
theorem execute_frame [Numerics] (source : String) :
    (∀ (i : Instruction) (stack stack' : Stack), i.execute source stack = .ok stack' ↔
      ∃ xs value below, i.Combines xs value ∧ stack = xs.reverse ++ below ∧
        stack' = value :: below) ∧
    (∀ is stack stack', execute source is stack = .ok stack' →
      ∀ below, execute source is (stack ++ below) = .ok (stack' ++ below)) ∧
    (∀ is value, execute source is [] = .ok [value] →
      ∀ below, execute source is below = .ok (value :: below)) ∧
    (∀ programs values i value,
      List.Forall₂ (fun is value => execute source is [] = .ok [value]) programs values →
      Instruction.Combines i values value →
        Program.run ⟨source, programs.flatten ++ [i]⟩ = .ok value) ∧
    ∀ is js op offset x y, execute source is [] = .ok [x] → execute source js [] = .ok [y] →
      Program.run ⟨source, is ++ js ++ [.operation op offset]⟩ = .ok (op.apply x y) := by
  refine ⟨fun _ _ _ => Instruction.execute_eq_ok_iff, fun _ _ _ h => execute_append_below h,
    fun _ _ h => execute_of_value h, fun _ _ _ _ h combines => run_flatten_concat h combines, ?_⟩
  intro is js op offset x y hx hy
  have hboth := run_flatten_concat (.cons hx (.cons hy .nil)) (.operation op offset x y)
  rwa [List.flatten_cons, List.flatten_cons, List.flatten_nil, List.append_nil] at hboth

/-- A call without arguments takes nothing, and one of two arguments leaves what is below them. -/
theorem execute_frame_calls :
    ∃ is : List Instruction,
      is = [.call (.reducer .count) 0 ⟨0, 0⟩, .call (.reducer .last) 2 ⟨0, 0⟩] ∧
        execute "" is [7] = .ok [0] ∧ execute "" is [7, 5, 3] = .ok [0, 5, 3] := by
  have halone : execute "" [.call (.reducer .count) 0 ⟨0, 0⟩, .call (.reducer .last) 2 ⟨0, 0⟩] [7] =
      .ok [0] := by
    decide +kernel
  obtain ⟨-, hframe, -⟩ := execute_frame ""
  exact ⟨_, rfl, halone, hframe _ _ _ halone [5, 3]⟩

end Reckoner
