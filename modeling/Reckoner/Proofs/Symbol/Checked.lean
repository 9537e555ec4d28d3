import Reckoner.Proofs.Binary64.Finite
import Reckoner.Symbol.Function
import Reckoner.Symbol.Operator

/-! # Operations that convert with checks

Some operations leave the numbers for the integers and come back: shifts, the factorial and the
remainder to the nearest multiple. Taken one by one these steps can fail. What is not finite has no
integer part, a negative number has no factorial, a large integer is no finite number, and no
remainder is left of infinity or by zero. Here every step is checked and has no result where it
fails. No operation ever meets such a step.

* **`Operator.apply?`, `Function.apply?`, `Binary64.factorial?`** — the operations with every step
  checked.
* **`Operator.apply?_eq`, `Function.apply?_eq`, `Binary64.factorial?_eq`** — they always have a
  result, and it is that of the plain operation. -/

namespace Reckoner

/-- The number of an integer, if that is finite. -/
def Binary64.ofInt? (z : Int) : Option Binary64 :=
  if (ofInt z).isFinite then some (ofInt z) else none

/-- An integer that is not too large is a finite number. -/
@[simp] theorem Binary64.ofInt?_eq {z : Int} (h : z.natAbs < twoPow 1020) : ofInt? z = some (ofInt z) := by
  rw [ofInt?, if_pos (isFinite_ofInt h)]

/-- A natural number is the same number as an integer. -/
@[simp] theorem Binary64.ofInt_natCast (n : Nat) : ofInt n = ofNat n := by
  have hsign : decide ((n : Int) < 0) = false :=
    decide_eq_false (Int.not_lt.mpr (Int.natCast_nonneg n))
  rw [ofInt, ofNat, hsign, Int.natAbs_natCast]

/-! ## Shifts -/

/-- A shift of words, unless an operand is not finite. -/
def shiftWords? (shift : BitVec 32 → Nat → BitVec 32) (x y : Binary64) : Option Binary64 :=
  if x.isFinite && y.isFinite then
    x.truncate?.bind fun l =>
    y.truncate?.bind fun r =>
    Binary64.ofInt? (shift (BitVec.ofInt 32 l) ((BitVec.ofInt 32 r).toNat % 32)).toInt
  else some (.nan false)

/-- Words are small integers. -/
theorem natAbs_toInt_lt (w : BitVec 32) : w.toInt.natAbs < twoPow 1020 := by
  have hupper := BitVec.toInt_lt (x := w)
  have hlower := BitVec.le_toInt (x := w)
  have hvalue : twoPow 32 = 4294967296 := rfl
  have hword : w.toInt.natAbs < twoPow 32 := by omega
  exact Nat.lt_of_lt_of_le hword (twoPow_le (by decide))

/-- **No conversion of a shift fails**. -/
@[simp] theorem shiftWords?_eq (shift : BitVec 32 → Nat → BitVec 32) (x y : Binary64) :
    shiftWords? shift x y = some (shiftWords shift x y) := by
  rw [shiftWords?, shiftWords]
  by_cases hfinite : (x.isFinite && y.isFinite) = true
  · rw [if_pos hfinite]
    rw [Bool.and_eq_true] at hfinite
    obtain ⟨l, hl⟩ := Binary64.exists_truncate hfinite.1
    obtain ⟨r, hr⟩ := Binary64.exists_truncate hfinite.2
    rw [hl, hr, Option.bind_some, Option.bind_some, Binary64.ofInt?_eq (natAbs_toInt_lt _)]
    rfl
  · rw [if_neg hfinite]
    -- one of the operands has no integer part
    cases hx : x.isFinite with
    | false => rw [Binary64.truncate?_eq_none hx]
    | true =>
      have hy : y.isFinite = false := by simpa [hx] using hfinite
      rw [Binary64.truncate?_eq_none hy]
      cases x.truncate? <;> rfl

/-! ## Remainders -/

/-- The remainder to the nearest multiple. There is none of infinity or by zero, unless the other
operand is a NaN. -/
def nearestRemainder? : Binary64 → Binary64 → Option Binary64
  | .number s r h, .number t q k =>
    if r = topRank ∨ q = 0 then none
    else some (Binary64.ieeeRemainder (.number s r h) (.number t q k))
  | _, _ => some (.nan false)

/-- The remainder, looked for only where there is one. -/
def ieeeRemainder? (x y : Binary64) : Option Binary64 :=
  if x.isNaN || y.isNaN || x.isInfinite || y.isZero then some (.nan false)
  else nearestRemainder? x y

/-- **A remainder is only looked for where there is one**. -/
@[simp] theorem ieeeRemainder?_eq (x y : Binary64) :
    ieeeRemainder? x y = some (x.ieeeRemainder y) := by
  cases x with
  | nan s => rfl
  | number s r h =>
    cases y with
    | nan t => rfl
    | number t q k =>
      rw [ieeeRemainder?]
      by_cases hnone : r = topRank ∨ q = 0
      · -- the guard keeps infinity and zero from the remainder
        have hguard : (r == topRank || q == 0) = true := by simpa using hnone
        have hvalue : Binary64.ieeeRemainder (.number s r h) (.number t q k) = .nan false := by
          rw [Binary64.ieeeRemainder, if_pos hnone]
        rw [hvalue]
        exact if_pos hguard
      · have hguard : ¬ (r == topRank || q == 0) = true := by simpa using hnone
        have hsome : nearestRemainder? (.number s r h) (.number t q k) =
            some (Binary64.ieeeRemainder (.number s r h) (.number t q k)) := if_neg hnone
        rw [← hsome]
        exact if_neg hguard

/-! ## The factorial -/

/-- The factorial of an integer, which a negative one has not. -/
def factorialInt? : Int → Option Nat
  | .ofNat n => some (factorialNat n)
  | .negSucc _ => none

/-- A natural number has a factorial. -/
@[simp] theorem factorialInt?_natCast (n : Nat) : factorialInt? n = some (factorialNat n) := rfl

/-- The factorial of a number, with every conversion checked. -/
def Binary64.factorial? (x : Binary64) : Option Binary64 :=
  if x.isNaN then some (.nan false)
  else if x.isInfinite then some (if x.isNegative then .nan false else .infinity false)
  else
    x.truncate?.bind fun z =>
    if z < 0 then some (.nan false)
    else if 170 < z then some (.infinity false)
    else (factorialInt? z).bind fun n => ofInt? n

/-- Factorials grow. -/
theorem factorialNat_le {m n : Nat} (h : m ≤ n) : factorialNat m ≤ factorialNat n := by
  induction h with
  | refl => exact Nat.le_refl _
  | @step n _ ih =>
    rw [factorialNat]
    exact Nat.le_trans ih (Nat.le_mul_of_pos_left _ (Nat.succ_pos n))

/-- The factorials that are computed are finite numbers. -/
theorem factorialNat_lt {n : Nat} (h : n ≤ 170) : factorialNat n < twoPow 1020 := by
  -- the largest factorial that is computed decides for all of them
  have hlargest : factorialNat 170 < twoPow 1020 := by decide +kernel
  exact Nat.lt_of_le_of_lt (factorialNat_le h) hlargest

/-- **No conversion of a factorial fails**. -/
@[simp] theorem Binary64.factorial?_eq (x : Binary64) : x.factorial? = some x.factorial := by
  cases x with
  | nan s => rfl
  | number s r h =>
    by_cases htop : r = topRank
    · -- infinity is looked at before anything is converted
      subst htop
      cases s <;> rfl
    · have hlt : r < topRank := Nat.lt_of_le_of_ne h htop
      have hinfinite : isInfinite (.number s r h) = false := by simpa [isInfinite] using htop
      rw [factorial?, isNaN_number, hinfinite, truncate?_number hlt]
      simp only [factorial, htop, Bool.false_eq_true, if_false, Option.bind_some]
      -- only the integer part `n` matters from here on
      generalize units r / unitsPerOne = n
      have hsmall : n ≤ 170 → (factorialInt? n).bind (fun m => ofInt? m) =
          some (ofNat (factorialNat n)) := by
        intro hn
        have hlt : (factorialNat n : Int).natAbs < twoPow 1020 := by
          rw [Int.natAbs_natCast]
          exact factorialNat_lt hn
        rw [factorialInt?_natCast, Option.bind_some, ofInt?_eq hlt, ofInt_natCast]
      cases s with
      | true =>
        by_cases hn : 0 < n
        · have hz : -(n : Int) < 0 := by omega
          simp only [hn, hz, if_true, and_self]
        · -- what lies between minus one and zero is truncated to zero
          obtain rfl : n = 0 := by omega
          simp only [Int.natCast_zero, Int.neg_zero, Int.lt_irrefl, Nat.lt_irrefl, and_false,
            if_true, if_false, Nat.not_lt_zero]
          rw [if_neg (by decide)]
          exact hsmall (by decide)
      | false =>
        have hz : ¬ (n : Int) < 0 := by omega
        simp only [Bool.false_eq_true, if_false, hz, false_and]
        by_cases hn : 170 < n
        · have hlarge : (170 : Int) < n := by omega
          simp only [hn, hlarge, if_true]
        · have hlarge : ¬ (170 : Int) < n := by omega
          simp only [hn, hlarge, if_false]
          exact hsmall (Nat.le_of_not_lt hn)

/-! ## Operators and functions -/

/-- The value of an operator, with every conversion checked. -/
def Operator.apply? [Numerics] : Operator → Binary64 → Binary64 → Option Binary64
  | .shiftLeft, x, y => shiftWords? (fun w n => w <<< n) x y
  | .shiftRight, x, y => shiftWords? (fun w n => w.sshiftRight n) x y
  | op, x, y => some (op.apply x y)

/-- **No conversion of an operator fails.** -/
@[simp] theorem Operator.apply?_eq [Numerics] (op : Operator) (x y : Binary64) :
    op.apply? x y = some (op.apply x y) := by
  cases op with
  | shiftLeft => exact shiftWords?_eq _ x y
  | shiftRight => exact shiftWords?_eq _ x y
  | _ => rfl

/-- The value of a function, or why it refuses its arguments, with every conversion checked. -/
def Function.apply? [Numerics] : Function → List Binary64 → Option (Except Rejection Binary64)
  | .binary .ieeeRemainder, [x, y] => (ieeeRemainder? x y).map .ok
  | f, xs => some (f.apply xs)

/-- **No conversion of a function fails.** -/
@[simp] theorem Function.apply?_eq [Numerics] (f : Function) (xs : List Binary64) :
    f.apply? xs = some (f.apply xs) := by
  unfold Function.apply?
  split
  · next x y =>
    rw [ieeeRemainder?_eq]
    rfl
  · rfl

end Reckoner
