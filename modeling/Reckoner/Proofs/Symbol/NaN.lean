import Mathlib.Data.List.Forall2
import Reckoner.Proofs.Symbol.Magnitude
import Reckoner.Symbol.Operator

/-! # The sign of NaN

A NaN has a sign, but nearly nothing looks at it: when the operands of an operator or the arguments of a
function are the same but for the signs of NaNs, so are the values. Only `copySign` makes a difference,
when its second argument is a NaN.

* **`Binary64.Alike`** — the same number, or NaN twice.
* **`Absorbs`** — an operation that has NaN for its value whenever an operand is NaN.
* **`Corresponds`** — results that are related, or failures that are.
* **`Operator.apply_alike`, `Function.apply_alike`** — the values of operators and functions. -/

namespace Reckoner

namespace Binary64

/-- Numbers are **alike** when they are the same, or both NaN. -/
inductive Alike : Binary64 → Binary64 → Prop
  | nan (s t : Bool) : Alike (.nan s) (.nan t)
  | number (s : Bool) (r : Nat) (hr : r ≤ topRank) : Alike (.number s r hr) (.number s r hr)

variable {x x' y y' : Binary64}

/-- Every number is like itself. -/
@[refl] theorem Alike.refl (x : Binary64) : Alike x x := by
  cases x with
  | nan s => exact .nan s s
  | number s r hr => exact .number s r hr

/-- Any two NaNs are alike. -/
theorem Alike.of_isNaN (hx : x.isNaN = true) (hy : y.isNaN = true) : Alike x y := by
  cases x with
  | number => cases hx
  | nan s =>
    cases y with
    | number => cases hy
    | nan t => exact .nan s t

/-! ## Operations on two numbers -/

/-- An operation **absorbs** NaN when its value is NaN as soon as one of the operands is. -/
def Absorbs (f : Binary64 → Binary64 → Binary64) : Prop :=
  ∀ x y, x.isNaN = true ∨ y.isNaN = true → (f x y).isNaN = true

/-- Such an operation does not see the sign of NaN. -/
theorem Absorbs.alike {f : Binary64 → Binary64 → Binary64} (h : Absorbs f) (hx : Alike x x')
    (hy : Alike y y') : Alike (f x y) (f x' y') := by
  cases hx with
  | nan s s' => exact .of_isNaN (h _ _ (.inl rfl)) (h _ _ (.inl rfl))
  | number s r hr =>
    cases hy with
    | nan t t' => exact .of_isNaN (h _ _ (.inr rfl)) (h _ _ (.inr rfl))
    | number t q hq => exact .refl _

/-- It is enough to look at a NaN on both sides, on the left and on the right. -/
theorem Absorbs.of_cases {f : Binary64 → Binary64 → Binary64}
    (both : ∀ s t, (f (.nan s) (.nan t)).isNaN = true)
    (left : ∀ s t q hq, (f (.nan s) (.number t q hq)).isNaN = true)
    (right : ∀ s r hr t, (f (.number s r hr) (.nan t)).isNaN = true) : Absorbs f := by
  intro x y h
  cases x with
  | nan s =>
    cases y with
    | nan t => exact both s t
    | number t q hq => exact left s t q hq
  | number s r hr =>
    cases y with
    | nan t => exact right s r hr t
    | number t q hq => rcases h with h | h <;> cases h

/-- Sums absorb NaN. -/
theorem absorbs_add : Absorbs (· + ·) :=
  .of_cases (fun _ _ => rfl) (fun _ _ _ _ => rfl) fun _ _ _ _ => rfl

/-- Differences absorb NaN. -/
theorem absorbs_sub : Absorbs (· - ·) :=
  .of_cases (fun _ _ => rfl) (fun _ _ _ _ => rfl) fun _ _ _ _ => rfl

/-- Products absorb NaN. -/
theorem absorbs_mul : Absorbs (· * ·) :=
  .of_cases (fun _ _ => rfl) (fun _ _ _ _ => rfl) fun _ _ _ _ => rfl

/-- Quotients absorb NaN. -/
theorem absorbs_div : Absorbs (· / ·) :=
  .of_cases (fun _ _ => rfl) (fun _ _ _ _ => rfl) fun _ _ _ _ => rfl

/-- Remainders absorb NaN. -/
theorem absorbs_fmod : Absorbs fmod :=
  .of_cases (fun _ _ => rfl) (fun _ _ _ _ => rfl) fun _ _ _ _ => rfl

/-- So do remainders to the nearest multiple. -/
theorem absorbs_ieeeRemainder : Absorbs ieeeRemainder :=
  .of_cases (fun _ _ => rfl) (fun _ _ _ _ => rfl) fun _ _ _ _ => rfl

/-- A percentage is a product with a quotient. -/
theorem absorbs_percentage : Absorbs percentage := fun _ y h =>
  absorbs_mul _ _ (h.imp_right fun hy => absorbs_div y 100 (.inl hy))

/-- What is not finite has no integer part to shift. -/
theorem absorbs_shiftWords (shift : BitVec 32 → Nat → BitVec 32) : Absorbs (shiftWords shift) := by
  refine .of_cases (fun _ _ => rfl) (fun _ _ _ _ => rfl) fun s r hr t => ?_
  rw [shiftWords]
  cases (number s r hr).truncate? <;> rfl

/-- A change of the sign leaves NaN as it is. -/
@[simp] theorem isNaN_neg (x : Binary64) : (-x).isNaN = x.isNaN := by
  cases x <;> rfl

/-- An operation absorbs NaN on the negated operand as well. -/
theorem Absorbs.neg_right {f : Binary64 → Binary64 → Binary64} (h : Absorbs f) :
    Absorbs fun x y => f x (-y) := fun x y hnan =>
  h x (-y) (hnan.imp_right (isNaN_neg y).trans)

/-- Numbers that are alike have alike negations. -/
theorem Alike.neg (h : Alike x y) : Alike (-x) (-y) := by
  cases h with
  | nan s t => exact .nan _ _
  | number s r hr => exact .refl _

/-- And alike factorials. -/
theorem Alike.factorial (h : Alike x y) : Alike x.factorial y.factorial := by
  cases h with
  | nan s t => exact .refl _
  | number s r hr => exact .refl _

/-- NaN is not one. -/
theorem ne_one_of_isNaN (h : x.isNaN = true) : x ≠ 1 := by
  rintro rfl
  cases h

section Library

variable [Numerics] [LawfulNumerics]

open Numerics

/-- Whether a power of NaN is a number does not depend on a sign, and nor does that number. -/
theorem Alike.power (hx : Alike x x') (hy : Alike y y') : Alike (power x y) (power x' y') := by
  cases hy with
  | number t q hq =>
    cases hx with
    | number s r hr => exact .refl _
    | nan s s' =>
      cases hzero : (Binary64.number t q hq).isZero with
      | true =>
        rw [LawfulNumerics.power_zero _ _ hzero, LawfulNumerics.power_zero _ _ hzero]
      | false =>
        exact .of_isNaN
          (LawfulNumerics.power_nan _ _ (.inl rfl) (ne_one_of_isNaN rfl) hzero)
          (LawfulNumerics.power_nan _ _ (.inl rfl) (ne_one_of_isNaN rfl) hzero)
  | nan t t' =>
    have hnan : ∀ {x : Binary64} {t : Bool}, x ≠ 1 → (Numerics.power x (.nan t)).isNaN = true :=
      fun hone => LawfulNumerics.power_nan _ _ (.inr rfl) hone rfl
    cases hx with
    | nan s s' => exact .of_isNaN (hnan (ne_one_of_isNaN rfl)) (hnan (ne_one_of_isNaN rfl))
    | number s r hr =>
      by_cases hone : Binary64.number s r hr = 1
      · rw [hone, LawfulNumerics.power_one, LawfulNumerics.power_one]
      · exact .of_isNaN (hnan hone) (hnan hone)

/-- The sign of a number that is not NaN is the same. -/
theorem Alike.copySign (hx : Alike x x') (hy : Alike y y') (definite : y.isNaN = false) :
    Alike (Numerics.copySign x y) (Numerics.copySign x' y') := by
  cases hy with
  | nan t t' => cases definite
  | number t q hq =>
    cases hx with
    | nan s s' =>
      exact .of_isNaN (LawfulNumerics.copySign_nan _ _ rfl) (LawfulNumerics.copySign_nan _ _ rfl)
    | number s r hr => exact .refl _

end Library

end Binary64

open Binary64

section Operators

variable [Numerics] [LawfulNumerics]

/-- The positive of a number is the number. -/
theorem Binary64.Absorbs.positive_right {f : Binary64 → Binary64 → Binary64} (h : Absorbs f) :
    Absorbs fun x y => f x (Numerics.positive y) := by
  intro x y hnan
  show (f x (Numerics.positive y)).isNaN = true
  rw [LawfulNumerics.positive_eq]
  exact h x y hnan

/-- A power can be a number although an operand is NaN; every other operator absorbs NaN. -/
theorem Operator.absorbs {op : Operator} (h : op ≠ .power) : Absorbs op.apply := by
  cases op with
  | power => exact absurd rfl h
  | shiftLeft => exact absorbs_shiftWords _
  | shiftRight => exact absorbs_shiftWords _
  | plus => exact absorbs_add
  | plusMinus => exact absorbs_add.neg_right
  | minus => exact absorbs_sub
  | minusPlus => exact absorbs_sub.positive_right
  | times => exact absorbs_mul
  | timesPlus => exact absorbs_mul.positive_right
  | timesMinus => exact absorbs_mul.neg_right
  | divide => exact absorbs_div
  | dividePlus => exact absorbs_div.positive_right
  | divideMinus => exact absorbs_div.neg_right
  | percent => exact absorbs_percentage
  | percentPlus => exact absorbs_percentage.positive_right
  | percentMinus => exact absorbs_percentage.neg_right

/-- **Operators do not see the sign of NaN.** -/
theorem Operator.apply_alike (op : Operator) {x x' y y' : Binary64} (hx : Alike x x') (hy : Alike y y') :
    Alike (op.apply x y) (op.apply x' y') := by
  by_cases hpower : op = .power
  · subst hpower
    exact hx.power hy
  · exact (Operator.absorbs hpower).alike hx hy

end Operators

/-! ## Functions with a fixed number of arguments -/

section Functions

variable [Numerics] [LawfulNumerics]

/-- Functions of one argument do not see the sign of NaN. -/
theorem UnaryFunction.unary_alike (f : UnaryFunction) {x x' : Binary64} (hx : Alike x x') :
    Alike (Numerics.unary f x) (Numerics.unary f x') := by
  cases hx with
  | nan s s' => exact .of_isNaN (LawfulNumerics.unary_nan f _ rfl) (LawfulNumerics.unary_nan f _ rfl)
  | number s r hr => exact .refl _

/-- Of the functions of two arguments, only `copySign` takes the sign of a NaN. -/
theorem BinaryFunction.apply_alike (f : BinaryFunction) {x x' y y' : Binary64} (hx : Alike x x')
    (hy : Alike y y') (unsigned : f = .copySign → y.isNaN = false) :
    Alike (f.apply x y) (f.apply x' y') := by
  cases f with
  | copySign => exact hx.copySign hy (unsigned rfl)
  | pow => exact hx.power hy
  | maxMagnitude => exact Absorbs.alike (fun x y h => (isNaN_magnitudes h).1) hx hy
  | minMagnitude => exact Absorbs.alike (fun x y h => (isNaN_magnitudes h).2) hx hy
  | atan2 => exact Absorbs.alike LawfulNumerics.atan2_nan hx hy
  | ieeeRemainder => exact absorbs_ieeeRemainder.alike hx hy
  | mod => exact Absorbs.alike LawfulNumerics.fmod_nan hx hy

end Functions

/-- Nor do those of three arguments. -/
theorem TernaryFunction.apply_alike (f : TernaryFunction) {x x' y y' z z' : Binary64} (hx : Alike x x')
    (hy : Alike y y') (hz : Alike z z') : Alike (f.apply x y z) (f.apply x' y' z') := by
  cases f with
  | fusedMultiplyAdd => exact absorbs_add.alike (absorbs_mul.alike hx hy) hz

/-! ## Lists of numbers -/

section Lists

variable {xs ys : List Binary64}

/-- Lists that are alike are the same, unless there is a NaN in both. -/
theorem eq_or_any_isNaN_of_alike (h : List.Forall₂ Alike xs ys) :
    xs = ys ∨ xs.any isNaN = true ∧ ys.any isNaN = true := by
  induction h with
  | nil => exact .inl rfl
  | cons first rest ih =>
    rw [List.any_cons, List.any_cons, Bool.or_eq_true, Bool.or_eq_true]
    cases first with
    | nan s t => exact .inr ⟨.inl rfl, .inl rfl⟩
    | number s r hr =>
      obtain rfl | ⟨hxs, hys⟩ := ih
      · exact .inl rfl
      · exact .inr ⟨.inr hxs, .inr hys⟩

/-- What is NaN on every list with a NaN does not see its sign. -/
theorem alike_of_any_isNaN {f : List Binary64 → Binary64}
    (hf : ∀ zs, zs.any isNaN = true → (f zs).isNaN = true) (h : List.Forall₂ Alike xs ys) :
    Alike (f xs) (f ys) := by
  obtain rfl | ⟨hxs, hys⟩ := eq_or_any_isNaN_of_alike h
  · exact .refl _
  · exact .of_isNaN (hf xs hxs) (hf ys hys)

/-- So it is with a first number and more. -/
theorem cons_alike_of_any_isNaN {f : Binary64 → List Binary64 → Binary64}
    (hf : ∀ z zs, (z :: zs).any isNaN = true → (f z zs).isNaN = true) {x y : Binary64}
    (first : Alike x y) (rest : List.Forall₂ Alike xs ys) : Alike (f x xs) (f y ys) := by
  obtain heq | ⟨hxs, hys⟩ := eq_or_any_isNaN_of_alike (.cons first rest)
  · obtain ⟨rfl, rfl⟩ := List.cons.inj heq
    exact .refl _
  · exact .of_isNaN (hf x xs hxs) (hf y ys hys)

end Lists

/-! ## Functions of any number of arguments -/

/-- Results **correspond** when their values are related, or their failures are. -/
inductive Corresponds {ε α : Type} (failures : ε → ε → Prop) (values : α → α → Prop) :
    Except ε α → Except ε α → Prop
  | value {x y : α} (related : values x y) : Corresponds failures values (.ok x) (.ok y)
  | failure {e e' : ε} (related : failures e e') : Corresponds failures values (.error e) (.error e')

/-- The last numbers of lists that are alike are alike. -/
theorem getLastD_alike {xs ys : List Binary64} (h : List.Forall₂ Alike xs ys) {a b : Binary64}
    (default : Alike a b) : Alike (xs.getLastD a) (ys.getLastD b) := by
  induction h generalizing a b with
  | nil => exact default
  | cons first rest ih =>
    rw [List.getLastD_cons, List.getLastD_cons]
    exact ih first

section Reducers

variable [Numerics] [LawfulNumerics]

/-- **Reducers do not see the sign of NaN**, and refuse as many arguments whatever they are. -/
theorem Reducer.apply_alike (f : Reducer) {xs ys : List Binary64} (h : List.Forall₂ Alike xs ys) :
    Corresponds (· = ·) Alike (f.apply xs) (f.apply ys) := by
  have hlength : xs.length = ys.length := h.length_eq
  cases f with
  | sum => exact .value (alike_of_any_isNaN LawfulNumerics.sum_nan h)
  | average => exact .value (alike_of_any_isNaN LawfulNumerics.mean_nan h)
  | count =>
    rw [apply, apply, hlength]
    exact .value (.refl _)
  | length =>
    rw [apply, apply, hlength]
    exact .value (.refl _)
  | min =>
    cases h with
    | nil => exact .failure rfl
    | cons first rest => exact .value (cons_alike_of_any_isNaN LawfulNumerics.least_nan first rest)
  | max =>
    cases h with
    | nil => exact .failure rfl
    | cons first rest =>
      exact .value (cons_alike_of_any_isNaN LawfulNumerics.greatest_nan first rest)
  | first =>
    cases h with
    | nil => exact .failure rfl
    | cons first rest => exact .value first
  | last =>
    cases h with
    | nil => exact .failure rfl
    | cons first rest => exact .value (getLastD_alike rest first)
  | single =>
    cases h with
    | nil => exact .failure rfl
    | cons first rest =>
      cases rest with
      | nil => exact .value first
      | cons second others => exact .failure (congrArg Rejection.notExactlyOne hlength)
  | firstOrDefault =>
    cases h with
    | nil => exact .value (.refl _)
    | cons first rest => exact .value first
  | lastOrDefault => exact .value (getLastD_alike h (.refl _))
  | singleOrDefault =>
    cases h with
    | nil => exact .value (.refl _)
    | cons first rest =>
      cases rest with
      | nil => exact .value first
      | cons second others => exact .failure (congrArg Rejection.moreThanOne hlength)

/-- **Functions do not see the sign of NaN**, but for `copySign` with a NaN for its second argument. -/
theorem Function.apply_alike (f : Function) {xs ys : List Binary64} (h : List.Forall₂ Alike xs ys)
    (unsigned : ∀ x y, f = .binary .copySign → xs = [x, y] → y.isNaN = false) :
    Corresponds (· = ·) Alike (f.apply xs) (f.apply ys) := by
  -- with another number of arguments than it takes, a function has no value
  cases f with
  | reducer f => exact f.apply_alike h
  | unary f =>
    cases h with
    | nil => exact .value (.refl _)
    | cons hx h =>
      cases h with
      | nil => exact .value (f.unary_alike hx)
      | cons hy h => exact .value (.refl _)
  | binary f =>
    cases h with
    | nil => exact .value (.refl _)
    | cons hx h =>
      cases h with
      | nil => exact .value (.refl _)
      | cons hy h =>
        cases h with
        | nil =>
          exact .value (f.apply_alike hx hy fun hf => unsigned _ _ (congrArg Function.binary hf) rfl)
        | cons hz h => exact .value (.refl _)
  | ternary f =>
    cases h with
    | nil => exact .value (.refl _)
    | cons hx h =>
      cases h with
      | nil => exact .value (.refl _)
      | cons hy h =>
        cases h with
        | nil => exact .value (.refl _)
        | cons hz h =>
          cases h with
          | nil => exact .value (f.apply_alike hx hy hz)
          | cons hw h => exact .value (.refl _)

end Reducers

end Reckoner
