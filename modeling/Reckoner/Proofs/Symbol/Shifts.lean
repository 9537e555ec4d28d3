import Mathlib.Algebra.Group.Int.Defs
import Reckoner.Binary64.Decimal
import Reckoner.Elementary.Library
import Reckoner.Proofs.Binary64.Integers
import Reckoner.Symbol.Operator

/-! # Shifts of words

The shifts truncate their operands, wrap them to signed 32-bit words, take the count modulo 32 and wrap the
result again. Wrapped three times or shifted as words of bits, the result is the same, and it is the word
of an integer that is not wrapped at all on the way.

* **`wrapWord`, `IsWord`** — an integer wrapped to a word, and the word that is congruent to an integer.
* **`leftShifted`, `rightShifted`** — the shifts with the arithmetic of integers.
* **`toInt_shiftLeft`, `toInt_sshiftRight`** — they are the shifts of words of bits.
* **`shifts_wrap`** — what the operators `<<` and `>>` compute. -/

namespace Reckoner

/-! ## Words -/

/-- An integer **wrapped to a signed 32-bit word**. -/
def wrapWord (z : Int) : Int := (z + 2 ^ 31) % 2 ^ 32 - 2 ^ 31

/-- The **signed 32-bit word** that is congruent to an integer. -/
structure IsWord (z w : Int) : Prop where
  lower : -2 ^ 31 ≤ w
  upper : w < 2 ^ 31
  congruent : w % 2 ^ 32 = z % 2 ^ 32

/-- Wrapping yields the word. -/
theorem isWord_wrapWord (z : Int) : IsWord z (wrapWord z) := by
  rw [wrapWord]
  constructor <;> omega

/-- There is one word for each integer. -/
theorem IsWord.eq_wrapWord {z w : Int} (h : IsWord z w) : w = wrapWord z := by
  obtain ⟨lower, upper, congruent⟩ := h
  rw [wrapWord]
  omega

/-- A word of bits is the wrapped integer. -/
theorem toInt_ofInt_word (z : Int) : (BitVec.ofInt 32 z).toInt = wrapWord z := by
  refine IsWord.eq_wrapWord ⟨BitVec.le_toInt _, BitVec.toInt_lt, ?_⟩
  rw [BitVec.toInt_ofInt]
  exact Int.bmod_emod

/-! ## Shifts of integers -/

/-- The places by which a count shifts. Wrapping does not change them. -/
def shiftCount (r : Int) : Nat := (r % 32).toNat

/-- A count is the same once it is wrapped to a word. -/
@[simp] theorem shiftCount_wrapWord (r : Int) : shiftCount (wrapWord r) = shiftCount r := by
  rw [shiftCount, shiftCount, wrapWord]
  omega

/-- The count of a shift in bit vectors. -/
theorem toNat_ofInt_word (r : Int) : (BitVec.ofInt 32 r).toNat % 32 = shiftCount r := by
  rw [BitVec.toNat_ofInt, shiftCount]
  omega

/-- The shift to the left with the arithmetic of integers: value, count and result are wrapped. -/
def leftShifted (l r : Int) : Int := wrapWord (wrapWord l * 2 ^ shiftCount (wrapWord r))

/-- The shift to the right with the arithmetic of integers: value, count and result are wrapped, and the
quotient is rounded down. -/
def rightShifted (l r : Int) : Int := wrapWord (wrapWord l / 2 ^ shiftCount (wrapWord r))

/-- **The shift to the left** is a product that is wrapped. -/
theorem isWord_leftShifted (l r : Int) : IsWord (l * 2 ^ shiftCount r) (leftShifted l r) := by
  have hword := isWord_wrapWord (wrapWord l * 2 ^ shiftCount (wrapWord r))
  refine ⟨hword.lower, hword.upper, hword.congruent.trans ?_⟩
  rw [shiftCount_wrapWord, Int.mul_emod, (isWord_wrapWord l).congruent, ← Int.mul_emod]

/-- **The shift to the left** of words of bits is that of integers. -/
theorem toInt_shiftLeft (l r : Int) :
    (BitVec.ofInt 32 l <<< ((BitVec.ofInt 32 r).toNat % 32)).toInt = leftShifted l r := by
  rw [(isWord_leftShifted l r).eq_wrapWord, toNat_ofInt_word]
  refine IsWord.eq_wrapWord ⟨BitVec.le_toInt _, BitVec.toInt_lt, ?_⟩
  have hbits : ((BitVec.ofInt 32 l).toNat : Int) = l % 2 ^ 32 := by
    rw [BitVec.toNat_ofInt]
    omega
  have hmodulus : ((2 ^ 32 : Nat) : Int) = 2 ^ 32 := rfl
  rw [BitVec.toInt_shiftLeft, ← hmodulus, Int.bmod_emod, Nat.shiftLeft_eq, Int.natCast_mul, hbits,
    hmodulus, Int.mul_emod, Int.emod_emod, ← Int.mul_emod, Int.natCast_pow]
  rfl

/-- **The shift to the right** of words of bits is the quotient of the word, rounded down. -/
theorem toInt_sshiftRight (l r : Int) :
    ((BitVec.ofInt 32 l).sshiftRight ((BitVec.ofInt 32 r).toNat % 32)).toInt =
      wrapWord l / 2 ^ shiftCount r := by
  rw [toNat_ofInt_word, BitVec.toInt_sshiftRight, toInt_ofInt_word, Int.shiftRight_eq_div_pow,
    Int.natCast_pow]
  rfl

/-- The quotient is a word already. -/
theorem rightShifted_eq (l r : Int) : rightShifted l r = wrapWord l / 2 ^ shiftCount r := by
  rw [rightShifted, shiftCount_wrapWord, ← toInt_sshiftRight]
  exact (IsWord.eq_wrapWord ⟨BitVec.le_toInt _, BitVec.toInt_lt, rfl⟩).symm

/-! ## Shifts of numbers -/

/-- A number **is exactly** an integer. -/
def Binary64.IsInteger (x : Binary64) (z : Int) : Prop := x.units? = some (z * unitsPerOne)

/-- Every word is exactly a number. -/
theorem isInteger_ofInt {z : Int} (lower : -2 ^ 31 ≤ z) (upper : z < 2 ^ 31) :
    (Binary64.ofInt z).IsInteger z := by
  have hsmall : z.natAbs ≤ twoPow 31 := by
    have hpower : twoPow 31 = 2 ^ 31 := rfl
    omega
  exact Binary64.units?_ofInt (Nat.le_trans hsmall (twoPow_le (by decide)))

/-- Without an integer part of both operands there is no shift. -/
@[simp] theorem shiftWords_eq_nan (shift : BitVec 32 → Nat → BitVec 32) {x y : Binary64}
    (h : x.isFinite = false ∨ y.isFinite = false) : shiftWords shift x y = .nan false := by
  rw [shiftWords]
  rcases h with hx | hy
  · rw [Binary64.truncate?_eq_none hx]
  · rw [Binary64.truncate?_eq_none hy]
    cases x.truncate? <;> rfl

/-- **The operators `<<` and `>>` shift words.** For finite operands of any magnitude and sign, with the
integer parts `l` and `r`, the one is the word of `l · 2ᶜ` and the other is the word of `l` divided by
`2ᶜ` and rounded down, where `c` is `r` modulo 32. These are the shift to the left and the arithmetic
shift to the right of the words of bits, and what comes out when value, count and result are wrapped one
after the other. The result is always the word itself, without any rounding. If an operand is not finite,
there is no result. -/
theorem shifts_wrap [Numerics] (x y : Binary64) :
    (x.isFinite = true → y.isFinite = true → ∃ l r w left right : Int, ∃ c : Nat,
      x.IntegerPart l ∧ y.IntegerPart r ∧ c = (r % 32).toNat ∧
      c = (BitVec.ofInt 32 r).toNat % 32 ∧ IsWord l w ∧
      (IsWord (l * 2 ^ c) left ∧ left = (BitVec.ofInt 32 l <<< c).toInt ∧ left = leftShifted l r ∧
        (Operator.shiftLeft.apply x y).IsInteger left ∧ Operator.shiftLeft.apply x y = .ofInt left) ∧
      (right = w / 2 ^ c ∧ -2 ^ 31 ≤ right ∧ right < 2 ^ 31 ∧
        right = ((BitVec.ofInt 32 l).sshiftRight c).toInt ∧ right = rightShifted l r ∧
        (Operator.shiftRight.apply x y).IsInteger right ∧
        Operator.shiftRight.apply x y = .ofInt right)) ∧
    (x.isFinite = false ∨ y.isFinite = false →
      Operator.shiftLeft.apply x y = .nan false ∧ Operator.shiftRight.apply x y = .nan false) := by
  refine ⟨fun hx hy => ?_, fun h => ⟨shiftWords_eq_nan _ h, shiftWords_eq_nan _ h⟩⟩
  obtain ⟨l, hl⟩ := Binary64.exists_truncate hx
  obtain ⟨r, hr⟩ := Binary64.exists_truncate hy
  have hcount := toNat_ofInt_word r
  have hleft := toInt_shiftLeft l r
  have hright := (toInt_sshiftRight l r).trans (rightShifted_eq l r).symm
  have hword := isWord_leftShifted l r
  have happlyLeft : Operator.shiftLeft.apply x y = .ofInt (leftShifted l r) := by
    rw [Operator.apply, shiftWords, hl, hr]
    exact congrArg Binary64.ofInt hleft
  have happlyRight : Operator.shiftRight.apply x y = .ofInt (rightShifted l r) := by
    rw [Operator.apply, shiftWords, hl, hr]
    exact congrArg Binary64.ofInt hright
  have hlower : -2 ^ 31 ≤ rightShifted l r := hright ▸ BitVec.le_toInt _
  have hupper : rightShifted l r < 2 ^ 31 := hright ▸ BitVec.toInt_lt
  rw [hcount] at hleft hright
  refine ⟨l, r, wrapWord l, leftShifted l r, rightShifted l r, shiftCount r,
    Binary64.integerPart_of_truncate? hl, Binary64.integerPart_of_truncate? hr, rfl, hcount.symm,
    isWord_wrapWord l,
    ⟨hword, hleft.symm, rfl, ?_, happlyLeft⟩,
    ⟨rightShifted_eq l r, hlower, hupper, hright.symm, rfl, ?_, happlyRight⟩⟩
  · rw [happlyLeft]
    exact isInteger_ofInt hword.lower hword.upper
  · rw [happlyRight]
    exact isInteger_ofInt hlower hupper

/-- A value beyond the words and a negative count, both with a fraction: `-5000000001` is wrapped to
`-705032705`, and `-31` counts as one place. -/
theorem shifts_wrap_negative :
    (∃ l r : Int, (-Binary64.ofNumeral "5000000001.5".toList).IntegerPart l ∧
      (-Binary64.ofNumeral "31.9".toList).IntegerPart r ∧
      (Operator.shiftLeft.apply (-Binary64.ofNumeral "5000000001.5".toList)
        (-Binary64.ofNumeral "31.9".toList)).IsInteger (leftShifted l r) ∧
      (Operator.shiftRight.apply (-Binary64.ofNumeral "5000000001.5".toList)
        (-Binary64.ofNumeral "31.9".toList)).IsInteger (rightShifted l r)) ∧
    Operator.shiftLeft.apply (-Binary64.ofNumeral "5000000001.5".toList)
      (-Binary64.ofNumeral "31.9".toList) = .ofInt (-1410065410) ∧
    Operator.shiftRight.apply (-Binary64.ofNumeral "5000000001.5".toList)
      (-Binary64.ofNumeral "31.9".toList) = .ofInt (-352516353) ∧
    Operator.shiftLeft.apply (.infinity true) 1 = .nan false := by
  obtain ⟨l, r, w, left, right, c, hl, hr, -, -, -, ⟨-, -, rfl, hleft, -⟩, -, -, -, -, rfl, hright, -⟩ :=
    (shifts_wrap (-Binary64.ofNumeral "5000000001.5".toList) (-Binary64.ofNumeral "31.9".toList)).1
      (by decide +kernel) (by decide +kernel)
  refine ⟨⟨l, r, hl, hr, hleft, hright⟩, by decide +kernel, by decide +kernel, ?_⟩
  exact ((shifts_wrap (.infinity true) 1).2 (.inl (by decide))).1

end Reckoner
