import Reckoner.Binary64.Text
import Reckoner.Proofs.Binary64.Digits
import Reckoner.Proofs.Token.Numeral

/-! # Written numbers are read back

However a decimal is laid out, its text is a numeral for that decimal; and what is written for a finite
number without a sign is read for the same number.

* **`Denotes`** — a numeral that is read for a decimal.
* **`digitsValue_toDigits`, `toDigits_eq_strippedDigits_append`** — the digits of a natural number.
* **`NumberStyle.denotes_layout`** — the text of digits and an exponent.
* **`Decimal.denotes_write`** — the text of a decimal.
* **`Binary64.numeral_write`** — the text of the shortest digits of a number is read for the number. -/

namespace Reckoner

/-! ## Digit strings -/

/-- One more digit makes the value ten times as large, and adds its own. -/
@[simp] theorem digitsValue_concat (cs : List Char) (c : Char) :
    digitsValue (cs ++ [c]) = 10 * digitsValue cs + (c.toNat - '0'.toNat) := by
  rw [digitsValue, List.foldl_append]
  rfl

/-- Zeros in front of digits do not count. -/
@[simp] theorem digitsValue_replicate_append (n : Nat) (cs : List Char) :
    digitsValue (List.replicate n '0' ++ cs) = digitsValue cs := by
  induction n with
  | zero => rfl
  | succ n ih =>
    rw [List.replicate_succ, List.cons_append, ← ih]
    rfl

/-- Zeros behind digits multiply by ten. -/
@[simp] theorem digitsValue_append_replicate (cs : List Char) (n : Nat) :
    digitsValue (cs ++ List.replicate n '0') = digitsValue cs * tenPow n := by
  induction n with
  | zero =>
    rw [List.replicate_zero, List.append_nil]
    exact (Nat.mul_one _).symm
  | succ n ih =>
    rw [List.replicate_succ', ← List.append_assoc, digitsValue_concat, ih, Nat.sub_self, Nat.add_zero,
      Nat.mul_left_comm, Nat.mul_comm 10, tenPow_add]
    rfl

/-- The value of the digits of a natural number. -/
@[simp] theorem digitsValue_toDigits (n : Nat) : digitsValue (Nat.toDigits 10 n) = n :=
  Nat.ofDigitChars_toDigits (by decide) (by decide)

/-- The digits of a number are digits. -/
@[simp] theorem digits_toDigits (n : Nat) : Digits (Nat.toDigits 10 n) := fun _ hc =>
  Nat.isDigit_of_mem_toDigits (by decide) (by decide) hc

/-- So are zeros. -/
@[simp] theorem digits_replicate (n : Nat) : Digits (List.replicate n '0') := by
  intro c hc
  rw [List.eq_of_mem_replicate hc]
  rfl

/-- Digits after digits are digits. -/
theorem Digits.append {ds es : List Char} (hd : Digits ds) (he : Digits es) : Digits (ds ++ es) :=
  List.forall_mem_append.mpr ⟨hd, he⟩

/-- **The digits of a nonzero number** are the stripped ones with zeros behind them. -/
theorem toDigits_eq_strippedDigits_append {n : Nat} (hn : n ≠ 0) :
    strippedDigits n ≠ [] ∧ ∃ j, Nat.toDigits 10 n = strippedDigits n ++ List.replicate j '0' := by
  generalize hkept : ((Nat.toDigits 10 n).reverse.dropWhile (· = '0')).reverse = kept
  obtain ⟨j, happend⟩ : ∃ j, Nat.toDigits 10 n = kept ++ List.replicate j '0' := by
    have hsplit : (Nat.toDigits 10 n).reverse.takeWhile (· = '0') ++
        (Nat.toDigits 10 n).reverse.dropWhile (· = '0') = (Nat.toDigits 10 n).reverse :=
      List.takeWhile_append_dropWhile
    have hzeros : ∀ c ∈ (Nat.toDigits 10 n).reverse.takeWhile (· = '0'), c = '0' := fun c hc =>
      of_decide_eq_true (List.all_eq_true.mp List.all_takeWhile c hc)
    generalize (Nat.toDigits 10 n).reverse.takeWhile (· = '0') = zeros at hsplit hzeros
    refine ⟨zeros.length, ?_⟩
    rw [List.eq_replicate_of_mem hzeros] at hsplit
    have hreverse := congrArg List.reverse hsplit
    rw [List.reverse_append, List.reverse_replicate, List.reverse_reverse, hkept] at hreverse
    exact hreverse.symm
  have hne : kept ≠ [] := by
    rintro rfl
    have hvalue := digitsValue_toDigits n
    rw [happend, List.nil_append, ← List.append_nil (List.replicate j '0'),
      digitsValue_replicate_append] at hvalue
    exact hn hvalue.symm
  have hstripped : strippedDigits n = kept := by
    rw [strippedDigits, hkept]
    cases kept with
    | nil => exact absurd rfl hne
    | cons c cs => rfl
  rw [hstripped]
  exact ⟨hne, j, happend⟩

/-! ## Numerals for decimals -/

/-- A text **denotes** a decimal when it is a numeral for the number that is nearest to it. -/
structure Denotes (text : List Char) (d : Decimal) : Prop where
  numeral : Numeral text
  value : Binary64.ofNumeral text = .ofDecimal false d

/-- An exponent part with the given power. -/
structure PowerOf (x : List Char) (power : Int) : Prop where
  exponent : ExponentPart x
  read : (scanExponent? x).getD (0, x) = (power, [])

/-- No exponent is the exponent zero. -/
theorem powerOf_nil : PowerOf [] 0 := ⟨.absent, rfl⟩

/-- Digits without a point denote their value times the power of ten. -/
theorem Denotes.whole {ds x : List Char} {power : Int} (digits : Digits ds) (nonempty : ds ≠ [])
    (hx : PowerOf x power) : Denotes (ds ++ x) ⟨digitsValue ds, power⟩ where
  numeral := .intro (.whole digits nonempty) hx.exponent
  value := by rw [Binary64.ofNumeral, scanNumeral_whole digits nonempty hx.exponent hx.read]

/-- Digits with a point denote the value of all of them, with so many places after the point. -/
theorem Denotes.pointed {ds es x : List Char} {power : Int} (digits : Digits ds) (nonempty : ds ≠ [])
    (fraction : Digits es) (hx : PowerOf x power) :
    Denotes (ds ++ '.' :: (es ++ x)) ⟨digitsValue (ds ++ es), power - es.length⟩ where
  numeral := by
    have h : Numeral ((ds ++ '.' :: es) ++ x) :=
      .intro (.pointed digits fraction (.inl nonempty)) hx.exponent
    rwa [List.append_assoc, List.cons_append] at h
  value := by
    rw [Binary64.ofNumeral, scanNumeral_pointed digits fraction (.inl nonempty) hx.exponent hx.read]

/-- Zeros may move to the exponent. -/
theorem Denotes.shift {text : List Char} {c j : Nat} {k : Int} (h : Denotes text ⟨c * tenPow j, k⟩) :
    Denotes text ⟨c, k + j⟩ :=
  ⟨h.numeral, by rw [h.value, Binary64.ofDecimal_shift]⟩

/-! ## Texts without an exponent -/

section Positional

variable {ds : List Char}

/-- Zeros between the point and the digits. -/
theorem denotes_small (digits : Digits ds) (j : Nat) :
    Denotes (['0'] ++ '.' :: (List.replicate j '0' ++ ds))
      ⟨digitsValue ds, -((j + ds.length : Nat) : Int)⟩ := by
  have hzero : Digits ['0'] := digits_replicate 1
  have h := Denotes.pointed hzero (List.cons_ne_nil '0' []) ((digits_replicate j).append digits)
    powerOf_nil
  have hvalue : digitsValue (['0'] ++ (List.replicate j '0' ++ ds)) = digitsValue ds := by
    have hone := digitsValue_replicate_append 1 (List.replicate j '0' ++ ds)
    exact hone.trans (digitsValue_replicate_append j ds)
  rwa [hvalue, Int.zero_sub, List.length_append, List.length_replicate, List.append_nil] at h

/-- Zeros behind the digits, and no point. -/
theorem denotes_whole (digits : Digits ds) (nonempty : ds ≠ []) (j : Nat) :
    Denotes (ds ++ List.replicate j '0') ⟨digitsValue ds, j⟩ := by
  have h := Denotes.whole (digits.append (digits_replicate j))
    (List.append_ne_nil_of_left_ne_nil nonempty _) powerOf_nil
  rw [digitsValue_append_replicate, List.append_nil] at h
  have hshift := h.shift
  rwa [Int.zero_add] at hshift

/-- Zeros behind the digits, and one more after the point. -/
theorem denotes_pointZero (digits : Digits ds) (nonempty : ds ≠ []) (j : Nat) :
    Denotes (ds ++ List.replicate j '0' ++ ['.', '0']) ⟨digitsValue ds, j⟩ := by
  have hzero : Digits ['0'] := digits_replicate 1
  have h := Denotes.pointed (digits.append (digits_replicate j))
    (List.append_ne_nil_of_left_ne_nil nonempty _) hzero powerOf_nil
  have hall : ds ++ List.replicate j '0' ++ ['0'] = ds ++ List.replicate (j + 1) '0' := by
    rw [List.append_assoc, ← List.replicate_succ']
  rw [hall, digitsValue_append_replicate] at h
  have hpower : 0 - (['0'].length : Int) + (j + 1 : Nat) = j := by
    rw [List.length_singleton]
    omega
  have hshift := h.shift
  rwa [hpower] at hshift

/-- A point between the digits. -/
theorem denotes_split (digits : Digits ds) {n : Nat} (hn : 0 < n) (h : n < ds.length) :
    Denotes (ds.take n ++ '.' :: ds.drop n) ⟨digitsValue ds, n - ds.length⟩ := by
  have hbefore : Digits (ds.take n) := fun c hc => digits c (List.mem_of_mem_take hc)
  have hafter : Digits (ds.drop n) := fun c hc => digits c (List.mem_of_mem_drop hc)
  have hnonempty : ds.take n ≠ [] := by
    refine List.ne_nil_of_length_pos ?_
    rw [List.length_take]
    omega
  have hdenotes := Denotes.pointed hbefore hnonempty hafter powerOf_nil
  have hexponent : 0 - ((ds.drop n).length : Int) = n - ds.length := by
    rw [List.length_drop]
    omega
  rwa [List.take_append_drop, hexponent, List.append_nil] at hdenotes

end Positional

/-! ## Laying out -/

namespace NumberStyle

/-- The digits of an exponent, of which there are two at least. -/
theorem exists_exponent_digits (n : Nat) :
    ∃ ds, (if (toString n).length < 2 then "0" ++ toString n else toString n).toList = ds ∧
      Digits ds ∧ ds ≠ [] ∧ digitsValue ds = n := by
  have hdigits : (toString n).toList = Nat.toDigits 10 n := Nat.toList_repr
  split
  · refine ⟨_, rfl, ?_⟩
    rw [String.toList_append, hdigits]
    have hzero : Digits "0".toList := digits_replicate 1
    refine ⟨hzero.append (digits_toDigits n), List.cons_ne_nil _ _, ?_⟩
    have hvalue := digitsValue_replicate_append 1 (Nat.toDigits 10 n)
    rwa [digitsValue_toDigits] at hvalue
  · exact ⟨_, hdigits, digits_toDigits n, Nat.toDigits_ne_nil, digitsValue_toDigits n⟩

/-- An exponent with a sign is read to its end. -/
theorem scanExponent?_signed {ds : List Char} (digits : Digits ds) (nonempty : ds ≠ []) :
    scanExponent? ('e' :: '+' :: ds) = some ((digitsValue ds : Int), []) ∧
      scanExponent? ('e' :: '-' :: ds) = some (-(digitsValue ds : Int), []) := by
  -- nothing is left after the digits
  have hread : ds.takeWhile Char.isDigit = ds ∧ ds.dropWhile Char.isDigit = [] := by
    have h : (ds ++ []).takeWhile Char.isDigit = ds ∧ (ds ++ []).dropWhile Char.isDigit = [] :=
      digits.takeWhile_append (by simp)
    rwa [List.append_nil] at h
  have hne : ds.isEmpty = false := by simpa using nonempty
  constructor <;> simp [scanExponent?, hread.1, hread.2, hne]

/-- The text of an exponent. -/
theorem powerOf_exponentText (e : Int) : PowerOf (exponentText e).toList e := by
  obtain ⟨ds, htext, digits, nonempty, hvalue⟩ := exists_exponent_digits e.natAbs
  obtain ⟨hplus, hminus⟩ := scanExponent?_signed digits nonempty
  by_cases hnegative : e < 0
  · have hexponent : (exponentText e).toList = 'e' :: (['-'] ++ ds) := by
      rw [exponentText, if_pos hnegative, String.toList_append, String.toList_append, htext]
      rfl
    have hsize : -(e.natAbs : Int) = e := by omega
    rw [hexponent]
    refine ⟨.present (.inl rfl) (by simp) digits nonempty, ?_⟩
    rw [List.singleton_append, hminus, hvalue, hsize, Option.getD_some]
  · have hexponent : (exponentText e).toList = 'e' :: (['+'] ++ ds) := by
      rw [exponentText, if_neg hnegative, String.toList_append, String.toList_append, htext]
      rfl
    have hsize : (e.natAbs : Int) = e := by omega
    rw [hexponent]
    refine ⟨.present (.inl rfl) (by simp) digits nonempty, ?_⟩
    rw [List.singleton_append, hplus, hvalue, hsize, Option.getD_some]

/-- **The text of digits**, the first of which has the given exponent. -/
theorem denotes_layout (style : NumberStyle) {ds : List Char} (digits : Digits ds)
    (nonempty : ds ≠ []) (e : Int) :
    Denotes (style.layout ds e).toList ⟨digitsValue ds, e + 1 - ds.length⟩ := by
  unfold layout
  by_cases hscientific : e < style.leastPositional ∨ style.firstScientific ≤ e
  · -- one digit, or a point after the first one
    rw [if_pos hscientific]
    obtain ⟨d, rest, rfl⟩ := List.exists_cons_of_ne_nil nonempty
    cases rest with
    | nil =>
      have hlength : e + 1 - ([d].length : Int) = e := Int.add_sub_cancel e 1
      rw [hlength, String.toList_append, String.toList_ofList]
      exact .whole digits nonempty (powerOf_exponentText e)
    | cons f more =>
      obtain ⟨hd, hmore⟩ := List.forall_mem_cons.mp digits
      have hfirst : Digits [d] := List.forall_mem_singleton.mpr hd
      have hlength : e + 1 - ((d :: f :: more).length : Int) = e - ((f :: more).length : Int) := by
        rw [List.length_cons]
        omega
      rw [hlength, String.toList_append, String.toList_ofList]
      exact .pointed hfirst (List.cons_ne_nil d []) hmore (powerOf_exponentText e)
  · rw [if_neg hscientific]
    by_cases hsmall : e < 0
    · have hexponent : e + 1 - (ds.length : Int) = -(((-e - 1).toNat + ds.length : Nat) : Int) := by
        omega
      rw [if_pos hsmall, hexponent, String.toList_append, String.toList_ofList, String.toList_ofList]
      exact denotes_small digits _
    · rw [if_neg hsmall]
      dsimp only
      by_cases hlength : ds.length ≤ e.toNat + 1
      · have hexponent : e + 1 - (ds.length : Int) = (e.toNat + 1 - ds.length : Nat) := by omega
        rw [List.drop_eq_nil_of_le hlength, List.take_of_length_le hlength, List.isEmpty_nil, if_pos rfl,
          hexponent, String.toList_append, String.toList_ofList]
        by_cases hpoint : style.keepsPointZero = true
        · rw [if_pos hpoint]
          exact denotes_pointZero digits nonempty _
        · rw [if_neg hpoint, String.toList_empty, List.append_nil]
          exact denotes_whole digits nonempty _
      · have hinside := Nat.lt_of_not_le hlength
        have hempty : (ds.drop (e.toNat + 1)).isEmpty = false := by simpa using hinside
        have hexponent : e + 1 - (ds.length : Int) = ((e.toNat + 1 : Nat) : Int) - ds.length := by omega
        rw [hempty, if_neg Bool.false_ne_true, Nat.sub_eq_zero_of_le (Nat.le_of_lt hinside),
          List.replicate_zero, List.append_nil, String.toList_append, String.toList_append,
          String.toList_ofList, String.toList_ofList, String.toList_ofList, List.append_assoc, hexponent]
        exact denotes_split digits (Nat.succ_pos _) hinside

end NumberStyle

/-- **The text of a decimal** denotes it. -/
theorem Decimal.denotes_write (style : NumberStyle) (d : Decimal) :
    Denotes (d.write style).toList d := by
  obtain ⟨c, k⟩ := d
  rw [write]
  dsimp only
  split
  · next hzero =>
    subst hzero
    have hdigit : Digits ['0'] := digits_replicate 1
    have h := style.denotes_layout hdigit (List.cons_ne_nil '0' []) 0
    have hnone : ∀ e, (⟨0, e⟩ : Decimal).rank = 0 := fun e => if_pos rfl
    have hvalue : digitsValue ['0'] = 0 := rfl
    rw [hvalue] at h
    refine ⟨h.numeral, ?_⟩
    rw [h.value, Binary64.ofDecimal, Binary64.ofDecimal, hnone, hnone]
  · next hc =>
    -- the zeros at the end of the coefficient are not written
    obtain ⟨hnonempty, j, hdigits⟩ := toDigits_eq_strippedDigits_append hc
    have hall := digits_toDigits c
    have hcoefficient := digitsValue_toDigits c
    rw [hdigits] at hall hcoefficient
    rw [digitsValue_append_replicate] at hcoefficient
    have h := style.denotes_layout (List.forall_mem_append.mp hall).1 hnonempty
      (⟨c, k⟩ : Decimal).leadingExponent
    have hexponent : (⟨c, k⟩ : Decimal).leadingExponent + 1 - ((strippedDigits c).length : Int) =
        k + j := by
      rw [leadingExponent, hdigits, List.length_append, List.length_replicate]
      dsimp only
      omega
    rw [hexponent] at h
    refine ⟨h.numeral, ?_⟩
    rw [h.value, ← Binary64.ofDecimal_shift, hcoefficient]

namespace Binary64

/-- **What is written for the shortest digits of a number** is read for the number. -/
theorem numeral_write (style : NumberStyle) {x : Binary64} (hfinite : x.isFinite = true)
    (hsign : x.isNegative = false) :
    Numeral (x.write style shortestDigits).toList ∧
      ofNumeral (x.write style shortestDigits).toList = x := by
  cases x with
  | nan s => cases hfinite
  | number s r hr =>
    obtain rfl : s = false := hsign
    have htop : r < topRank := of_decide_eq_true hfinite
    -- the decimal that is written, and its rank
    obtain ⟨d, htext, hrank⟩ : ∃ d : Decimal,
        (number false r hr).write style shortestDigits = d.write style ∧ d.rank = r := by
      rw [write, if_neg Bool.false_ne_true, if_neg (Nat.ne_of_lt htop)]
      by_cases hzero : r = 0
      · rw [if_pos hzero]
        exact ⟨_, rfl, hzero.symm⟩
      · rw [if_neg hzero]
        exact ⟨_, rfl, rank_shortestDigits (Nat.pos_of_ne_zero hzero) htop⟩
    have h := d.denotes_write style
    rw [htext]
    refine ⟨h.numeral, ?_⟩
    rw [h.value, ofDecimal, hrank, ofRank_rank]

end Binary64

end Reckoner
