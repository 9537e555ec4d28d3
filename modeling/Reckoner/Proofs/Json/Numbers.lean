import Reckoner.Json.Printer
import Reckoner.Json.Reader
import Reckoner.Proofs.Binary64.Text

/-! # JSON numbers are read back

The digits of an integer and the shortest text of a number are numbers of JSON: they have a whole part
without a needless zero, digits after every point, and for a number that is no integer a point or an
exponent. So they are read for the same integer and the same number, up to whatever cannot continue
them.

* **`Json.Stops`** — a text that does not continue a number.
* **`Json.Whole`** — digits without a needless zero.
* **`Json.Real`** — the texts that JSON has for numbers that are no integers.
* **`Json.real_shortest`** — the text of every finite number without a sign is one of them.
* **`Json.scanNumber_integer`, `Json.scanNumber_number`** — what is read of integers and numbers. -/

namespace Reckoner

namespace Json

/-! ## The parts of a number -/

/-- A text that **stops** every number before it: it goes on with no digit, point or exponent. -/
def Stops (rest : List Char) : Prop :=
  ∀ c ∈ rest.head?, c.isDigit = false ∧ c ≠ '.' ∧ c ≠ 'e' ∧ c ≠ 'E'

/-- Digits without a needless zero. -/
def Whole (ds : List Char) : Prop := ds = ['0'] ∨ Digits ds ∧ ∃ d rest, ds = d :: rest ∧ d ≠ '0'

/-- A whole number is made of digits. -/
theorem Whole.digits {ds : List Char} (h : Whole ds) : Digits ds := by
  obtain rfl | ⟨digits, -⟩ := h
  · exact digits_replicate 1
  · exact digits

/-- And has one at least. -/
theorem Whole.ne_nil {ds : List Char} (h : Whole ds) : ds ≠ [] := by
  obtain rfl | ⟨-, d, rest, rfl, -⟩ := h
  · exact List.cons_ne_nil _ _
  · exact List.cons_ne_nil _ _

/-- A single digit is no needless zero. -/
theorem whole_singleton {d : Char} (hd : d.isDigit = true) : Whole [d] := by
  by_cases hzero : d = '0'
  · exact .inl (by rw [hzero])
  · exact .inr ⟨List.forall_mem_singleton.mpr hd, d, [], rfl, hzero⟩

/-- An exponent is read up to what is no digit. -/
theorem exists_power {x : List Char} (h : ExponentPart x) (present : x ≠ []) :
    ∃ power, ∀ rest : List Char, (∀ c ∈ rest.head?, c.isDigit = false) →
      scanExponent? (x ++ rest) = some (power, rest) := by
  cases h with
  | absent => exact absurd rfl present
  | @present e sign ds letter signed digits nonempty =>
    have hne : ds.isEmpty = false := by simpa using nonempty
    simp only [List.mem_cons, List.not_mem_nil, or_false] at signed
    rcases signed with rfl | rfl | rfl
    · refine ⟨digitsValue ds, fun rest stop => ?_⟩
      obtain ⟨htake, hdrop⟩ := digits.takeWhile_append stop
      obtain ⟨d, ds', rfl⟩ := List.exists_cons_of_ne_nil nonempty
      have hd : d.isDigit = true := digits d (List.mem_cons_self ..)
      -- the digits do not begin with a sign
      have hplus : d ≠ '+' := by
        rintro rfl
        cases hd
      have hminus : d ≠ '-' := by
        rintro rfl
        cases hd
      simp only [List.cons_append, List.nil_append] at htake hdrop ⊢
      simp [scanExponent?, letter, hplus, hminus, htake, hdrop]
    · refine ⟨digitsValue ds, fun rest stop => ?_⟩
      obtain ⟨htake, hdrop⟩ := digits.takeWhile_append stop
      simp [scanExponent?, letter, htake, hdrop, hne]
    · refine ⟨-digitsValue ds, fun rest stop => ?_⟩
      obtain ⟨htake, hdrop⟩ := digits.takeWhile_append stop
      simp [scanExponent?, letter, htake, hdrop, hne]

/-- No exponent is read where a number stops. -/
@[simp] theorem scanExponent?_of_stops {rest : List Char} (h : Stops rest) : scanExponent? rest = none := by
  cases rest with
  | nil => rfl
  | cons c rest =>
    obtain ⟨-, -, he, hE⟩ := h c rfl
    simp [scanExponent?, he, hE]

/-- No fraction is read without a point. -/
@[simp] theorem scanFraction_of_ne {rest : List Char} (h : ∀ c ∈ rest.head?, c ≠ '.') :
    scanFraction rest = ([], rest) := by
  unfold scanFraction
  split
  · exact absurd rfl (h '.' rfl)
  · rfl

/-- A fraction is read to its last digit. -/
@[simp] theorem scanFraction_point {es after : List Char} (digits : Digits es) (nonempty : es ≠ [])
    (stop : ∀ c ∈ after.head?, c.isDigit = false) :
    scanFraction ('.' :: (es ++ after)) = (es, after) := by
  obtain ⟨htake, hdrop⟩ := digits.takeWhile_append stop
  obtain ⟨e, es', rfl⟩ := List.exists_cons_of_ne_nil nonempty
  rw [scanFraction, splitDigits, htake, hdrop]

/-- The sign of a number. -/
def signText (negative : Bool) : List Char := if negative then ['-'] else []

/-- What is read of a sign, a whole part, a fraction and what follows it. -/
def readParts (negative : Bool) (ds fraction after : List Char) : Document × List Char :=
  let coefficient := digitsValue (ds ++ fraction)
  match fraction, scanExponent? after with
  | [], none => (.integer (if negative then -(coefficient : Int) else coefficient), after)
  | es, none => (.number (.ofDecimal negative ⟨coefficient, -es.length⟩), after)
  | es, some (power, rest) => (.number (.ofDecimal negative ⟨coefficient, power - es.length⟩), rest)

/-- A number is read part by part. -/
theorem scanNumber_parts (negative : Bool) {ds after fraction rest : List Char} (whole : Whole ds)
    (stop : ∀ c ∈ after.head?, c.isDigit = false)
    (hfraction : scanFraction after = (fraction, rest)) :
    scanNumber (signText negative ++ (ds ++ after)) = some (readParts negative ds fraction rest) := by
  obtain ⟨htake, hdrop⟩ := whole.digits.takeWhile_append stop
  have hne : ds.isEmpty = false := by simpa using whole.ne_nil
  unfold scanNumber
  split
  next negative' body hbody =>
    -- a number without a sign begins with a digit
    have hsign : negative' = negative ∧ body = ds ++ after := by
      cases negative with
      | true =>
        cases hbody
        exact ⟨rfl, rfl⟩
      | false =>
        obtain ⟨d, ds', rfl⟩ := List.exists_cons_of_ne_nil whole.ne_nil
        split at hbody
        · next r hr =>
          have hd : d.isDigit = true := whole.digits d (List.mem_cons_self ..)
          rw [(List.cons.inj hr).1] at hd
          cases hd
        · cases hbody
          exact ⟨rfl, rfl⟩
    obtain ⟨rfl, rfl⟩ := hsign
    split
    next ds' after' hsplit =>
      have hwhole : ds' = ds ∧ after' = after := by
        obtain rfl | ⟨-, d, rest', rfl, hzero⟩ := whole
        · cases hsplit
          exact ⟨rfl, rfl⟩
        · split at hsplit
          · next r hr => exact absurd (List.cons.inj hr).1 hzero
          · rw [splitDigits, htake, hdrop] at hsplit
            cases hsplit
            exact ⟨rfl, rfl⟩
      obtain ⟨rfl, rfl⟩ := hwhole
      rw [hne, if_neg Bool.false_ne_true, hfraction]
      unfold readParts
      dsimp only
      cases fraction <;> cases scanExponent? rest <;> rfl

/-! ## Integers -/

/-- The digits of a natural number other than zero do not begin with a zero. -/
theorem exists_toDigits {n : Nat} (hn : n ≠ 0) : ∃ d rest, Nat.toDigits 10 n = d :: rest ∧ d ≠ '0' := by
  induction n using Nat.strongRecOn with
  | ind n ih =>
    by_cases hsmall : n < 10
    · have hdigit : ∀ n < 10, n ≠ 0 → Nat.digitChar n ≠ '0' := by decide
      exact ⟨_, [], Nat.toDigits_of_lt_base hsmall, hdigit n hsmall hn⟩
    · obtain ⟨d, rest, hdigits, hd⟩ := ih (n / 10) (by omega) (by omega)
      exact ⟨d, rest ++ [(n % 10).digitChar],
        by rw [Nat.toDigits_of_base_le (by decide) (by omega), hdigits, List.cons_append], hd⟩

/-- The digits of a number are a whole number. -/
@[simp] theorem whole_toDigits (n : Nat) : Whole (Nat.toDigits 10 n) := by
  by_cases hn : n = 0
  · exact .inl (by rw [hn]; rfl)
  · exact .inr ⟨digits_toDigits n, exists_toDigits hn⟩

/-- An integer is written as a sign and digits. -/
theorem toList_toString_int (n : Int) :
    (toString n).toList = signText (decide (n < 0)) ++ Nat.toDigits 10 n.natAbs := by
  cases n with
  | ofNat n => exact Nat.toList_repr
  | negSucc n =>
    show ("-" ++ toString (n + 1)).toList = _
    have hdigits : (toString (n + 1)).toList = Nat.toDigits 10 (n + 1) := Nat.toList_repr
    rw [String.toList_append, hdigits, decide_eq_true (Int.negSucc_lt_zero n)]
    rfl

/-- **Integers are read back.** -/
@[simp] theorem scanNumber_integer (n : Int) {rest : List Char} (stops : Stops rest) :
    scanNumber ((toString n).toList ++ rest) = some (.integer n, rest) := by
  have hfraction : scanFraction rest = ([], rest) := scanFraction_of_ne fun c hc => (stops c hc).2.1
  rw [toList_toString_int, List.append_assoc,
    scanNumber_parts _ (whole_toDigits _) (fun c hc => (stops c hc).1) hfraction]
  unfold readParts
  rw [List.append_nil, digitsValue_toDigits, scanExponent?_of_stops stops]
  have hvalue : (if decide (n < 0) = true then -(n.natAbs : Int) else n.natAbs) = n := by
    by_cases hn : n < 0
    · rw [if_pos (decide_eq_true hn)]
      omega
    · rw [if_neg (by simpa using hn)]
      omega
  exact congrArg (fun m => some (Document.integer m, rest)) hvalue

/-! ## Numbers that are no integers -/

/-- The texts that JSON has for **numbers that are no integers**. There are digits after a point, or
there is an exponent. -/
inductive Real : List Char → Prop
  | pointed {ds es x : List Char} (whole : Whole ds) (fraction : Digits es) (nonempty : es ≠ [])
      (exponent : ExponentPart x) : Real (ds ++ '.' :: (es ++ x))
  | scaled {ds x : List Char} (whole : Whole ds) (exponent : ExponentPart x) (present : x ≠ []) :
      Real (ds ++ x)

/-- An exponent part stands for the same power whatever stops it. -/
theorem exists_power_or_zero {x : List Char} (h : ExponentPart x) :
    ∃ power, (scanExponent? x).getD (0, x) = (power, []) ∧ ∀ rest, Stops rest →
      (scanExponent? (x ++ rest)).getD (0, x ++ rest) = (power, rest) := by
  by_cases present : x = []
  · subst present
    refine ⟨0, rfl, fun rest stops => ?_⟩
    rw [List.nil_append, scanExponent?_of_stops stops, Option.getD_none]
  · obtain ⟨power, hpower⟩ := exists_power h present
    have hbare := hpower [] (by simp)
    rw [List.append_nil] at hbare
    refine ⟨power, by rw [hbare, Option.getD_some], fun rest stops => ?_⟩
    rw [hpower rest fun c hc => (stops c hc).1, Option.getD_some]

/-- With a fraction, so many places are behind the point. -/
theorem readParts_fraction (negative : Bool) {ds es after rest : List Char} {power : Int}
    (nonempty : es ≠ []) (hpower : (scanExponent? after).getD (0, after) = (power, rest)) :
    readParts negative ds es after =
      (.number (.ofDecimal negative ⟨digitsValue (ds ++ es), power - es.length⟩), rest) := by
  obtain ⟨e, es', rfl⟩ := List.exists_cons_of_ne_nil nonempty
  unfold readParts
  cases hscan : scanExponent? after with
  | none =>
    rw [hscan] at hpower
    cases hpower
    rw [Int.zero_sub]
  | some read =>
    rw [hscan] at hpower
    cases hpower
    rfl

/-- What follows a whole part is an exponent or what stops a number. -/
theorem not_digit_append {x rest : List Char} (h : ExponentPart x) (stops : Stops rest) :
    ∀ c ∈ (x ++ rest).head?, c.isDigit = false := by
  cases x with
  | nil => exact fun c hc => (stops c hc).1
  | cons e x => exact fun c hc => (h.stop c hc).1

/-- **Numbers are read as numerals are**, with the sign before them. -/
theorem Real.exists_scanNumber {text : List Char} (h : Real text) :
    ∃ d : Decimal, Binary64.ofNumeral text = .ofDecimal false d ∧
      ∀ negative rest, Stops rest → scanNumber (signText negative ++ (text ++ rest)) =
        some (.number (.ofDecimal negative d), rest) := by
  cases h with
  | @pointed ds es x whole fraction nonempty exponent =>
    obtain ⟨power, hbare, hpower⟩ := exists_power_or_zero exponent
    refine ⟨⟨digitsValue (ds ++ es), power - es.length⟩, ?_, fun negative rest stops => ?_⟩
    · rw [Binary64.ofNumeral,
        scanNumeral_pointed whole.digits fraction (.inr nonempty) exponent hbare]
    · have hpoint : ∀ c ∈ ('.' :: (es ++ (x ++ rest))).head?, c.isDigit = false := by
        intro c hc
        cases hc
        rfl
      rw [List.append_assoc, List.cons_append, List.append_assoc,
        scanNumber_parts negative whole hpoint
          (scanFraction_point fraction nonempty (not_digit_append exponent stops)),
        readParts_fraction negative nonempty (hpower rest stops)]
  | @scaled ds x whole exponent present =>
    obtain ⟨power, hpower⟩ := exists_power exponent present
    have hbare := hpower [] (by simp)
    rw [List.append_nil] at hbare
    refine ⟨⟨digitsValue ds, power⟩, ?_, fun negative rest stops => ?_⟩
    · rw [Binary64.ofNumeral, scanNumeral_whole whole.digits whole.ne_nil exponent
        (by rw [hbare, Option.getD_some])]
    · have hfraction : scanFraction (x ++ rest) = ([], x ++ rest) := by
        refine scanFraction_of_ne fun c hc => ?_
        obtain ⟨e, x', rfl⟩ := List.exists_cons_of_ne_nil present
        exact (exponent.stop c hc).2
      rw [List.append_assoc, scanNumber_parts negative whole (not_digit_append exponent stops) hfraction]
      unfold readParts
      rw [List.append_nil, hpower rest fun c hc => (stops c hc).1]
      simp

/-! ## The text of a number -/

/-- Digits without zeros at the end are a whole number. -/
theorem whole_strippedDigits {n : Nat} (hn : n ≠ 0) : Whole (strippedDigits n) := by
  obtain ⟨hne, j, hdigits⟩ := toDigits_eq_strippedDigits_append hn
  obtain ⟨d, rest, hfirst, hd⟩ := exists_toDigits hn
  have hall := digits_toDigits n
  rw [hdigits] at hall hfirst
  obtain ⟨d', rest', hstripped⟩ := List.exists_cons_of_ne_nil hne
  rw [hstripped, List.cons_append] at hfirst
  refine .inr ⟨(List.forall_mem_append.mp hall).1, d', rest', hstripped, ?_⟩
  rw [(List.cons.inj hfirst).1]
  exact hd

/-- The exponent of a number is written. -/
theorem exponentText_ne_nil (e : Int) : (NumberStyle.exponentText e).toList ≠ [] := by
  rw [NumberStyle.exponentText, String.toList_append, String.toList_append]
  exact List.cons_ne_nil _ _

/-- Digits without a needless zero, and more digits after them unless they are a single zero. -/
theorem Whole.append {ds es : List Char} (h : Whole ds) (digits : Digits es)
    (hzero : ds = ['0'] → es = []) : Whole (ds ++ es) := by
  obtain rfl | ⟨hds, d, rest, rfl, hd⟩ := h
  · rw [hzero rfl]
    exact .inl rfl
  · exact .inr ⟨hds.append digits, d, rest ++ es, rfl, hd⟩

/-- The first digits of several, as long as there is one. -/
theorem Whole.take {ds : List Char} (h : Whole ds) {n : Nat} (hn : 0 < n) : Whole (ds.take n) := by
  obtain ⟨n, rfl⟩ := Nat.exists_eq_succ_of_ne_zero (Nat.ne_of_gt hn)
  obtain rfl | ⟨hds, d, rest, rfl, hd⟩ := h
  · exact .inl (by rw [List.take_succ_cons, List.take_nil])
  · exact .inr ⟨fun c hc => hds c (List.mem_of_mem_take hc), d, rest.take n, rfl, hd⟩

/-- **The layout of digits** without a needless zero is a number of JSON. -/
theorem real_layout {ds : List Char} (whole : Whole ds) {e : Int} (hzero : ds = ['0'] → e = 0) :
    Real (NumberStyle.roundTrip.layout ds e).toList := by
  have hdigits := whole.digits
  have hne := whole.ne_nil
  unfold NumberStyle.layout
  by_cases hscientific : e < NumberStyle.roundTrip.leastPositional ∨
      NumberStyle.roundTrip.firstScientific ≤ e
  · have hexponent := (NumberStyle.powerOf_exponentText e).exponent
    rw [if_pos hscientific]
    obtain ⟨d, rest, rfl⟩ := List.exists_cons_of_ne_nil hne
    have hfirst : Whole [d] := whole_singleton (hdigits d (List.mem_cons_self ..))
    cases rest with
    | nil =>
      rw [String.toList_append, String.toList_ofList]
      exact .scaled hfirst hexponent (exponentText_ne_nil e)
    | cons f more =>
      rw [String.toList_append, String.toList_ofList]
      exact .pointed hfirst (List.forall_mem_cons.mp hdigits).2 (List.cons_ne_nil f more) hexponent
  · rw [if_neg hscientific]
    by_cases hsmall : e < 0
    · rw [if_pos hsmall, String.toList_append, String.toList_ofList, String.toList_ofList]
      have hreal : Real (['0'] ++ '.' :: ((List.replicate (-e - 1).toNat '0' ++ ds) ++ [])) :=
        .pointed (.inl rfl) ((digits_replicate _).append hdigits)
          (List.append_ne_nil_of_right_ne_nil _ hne) .absent
      rwa [List.append_nil] at hreal
    · rw [if_neg hsmall]
      dsimp only
      by_cases hlength : ds.length ≤ e.toNat + 1
      · -- a single zero is followed by no others
        have hzeros : ds = ['0'] → List.replicate (e.toNat + 1 - ds.length) '0' = [] := by
          intro hds
          rw [hzero hds, hds]
          rfl
        have hpoint : NumberStyle.roundTrip.keepsPointZero = true := rfl
        rw [List.drop_eq_nil_of_le hlength, List.take_of_length_le hlength, List.isEmpty_nil,
          if_pos rfl, hpoint, if_pos rfl, String.toList_append, String.toList_ofList]
        exact .pointed (whole.append (digits_replicate _) hzeros) (digits_replicate 1)
          (List.cons_ne_nil '0' []) .absent
      · have hinside := Nat.lt_of_not_le hlength
        have hfraction : ds.drop (e.toNat + 1) ≠ [] := by simpa using hinside
        have hempty : (ds.drop (e.toNat + 1)).isEmpty = false := by simpa using hinside
        have hafter : Digits (ds.drop (e.toNat + 1)) := fun c hc =>
          hdigits c (List.mem_of_mem_drop hc)
        rw [hempty, if_neg Bool.false_ne_true, Nat.sub_eq_zero_of_le (Nat.le_of_lt hinside),
          List.replicate_zero, List.append_nil, String.toList_append, String.toList_append,
          String.toList_ofList, String.toList_ofList, String.toList_ofList, List.append_assoc]
        have hreal : Real (ds.take (e.toNat + 1) ++ '.' :: (ds.drop (e.toNat + 1) ++ [])) :=
          .pointed (whole.take (Nat.succ_pos _)) hafter hfraction .absent
        rwa [List.append_nil] at hreal

/-- **The text of a decimal is a real number**. -/
theorem real_write (d : Decimal) : Real (d.write .roundTrip).toList := by
  rw [Decimal.write]
  by_cases hzero : d.coefficient = 0
  · rw [if_pos hzero]
    exact real_layout (.inl rfl) fun _ => rfl
  · have whole := whole_strippedDigits hzero
    rw [if_neg hzero]
    refine real_layout whole fun hstripped => ?_
    -- the digits of a number that is not zero are no single zero
    obtain ⟨d', rest, hdigits, hd⟩ := exists_toDigits hzero
    obtain ⟨-, j, happend⟩ := toDigits_eq_strippedDigits_append hzero
    rw [hstripped, hdigits] at happend
    exact absurd (List.cons.inj happend).1 hd

/-- **The shortest text of a number** without a sign is a number of JSON. -/
theorem real_shortest {x : Binary64} (hfinite : x.isFinite = true) (hsign : x.isNegative = false) :
    Real x.shortest.toList := by
  cases x with
  | nan s => cases hfinite
  | number s r hr =>
    obtain rfl : s = false := hsign
    have htop : r < topRank := of_decide_eq_true hfinite
    rw [Binary64.shortest, Binary64.write, if_neg Bool.false_ne_true, if_neg (Nat.ne_of_lt htop)]
    by_cases hzero : r = 0
    · rw [if_pos hzero]
      exact real_write _
    · rw [if_neg hzero]
      exact real_write _

/-- The sign of a number comes before the text of its magnitude. -/
@[simp] theorem toList_shortest (s : Bool) (r : Nat) (hr : r ≤ topRank) :
    (Binary64.number s r hr).shortest.toList =
      signText s ++ (Binary64.number false r hr).shortest.toList := by
  cases s with
  | false => rfl
  | true =>
    rw [Binary64.shortest, Binary64.write, if_pos rfl, String.toList_append]
    rfl

/-- A number begins with a digit. -/
theorem Real.exists_digit {text : List Char} (h : Real text) :
    ∃ c cs, text = c :: cs ∧ c.isDigit = true := by
  have hwhole : ∀ {ds : List Char}, Whole ds → ∃ c cs, ds = c :: cs ∧ c.isDigit = true := by
    intro ds whole
    obtain ⟨c, cs, rfl⟩ := List.exists_cons_of_ne_nil whole.ne_nil
    exact ⟨c, cs, rfl, whole.digits c (List.mem_cons_self ..)⟩
  cases h with
  | pointed whole fraction nonempty exponent =>
    obtain ⟨c, cs, rfl, digit⟩ := hwhole whole
    exact ⟨c, _, rfl, digit⟩
  | scaled whole exponent present =>
    obtain ⟨c, cs, rfl, digit⟩ := hwhole whole
    exact ⟨c, _, rfl, digit⟩

/-- **Finite numbers are read back.** -/
@[simp] theorem scanNumber_number (s : Bool) {r : Nat} (hr : r ≤ topRank) (hfinite : r < topRank)
    {rest : List Char} (stops : Stops rest) :
    scanNumber ((Binary64.number s r hr).shortest.toList ++ rest) =
      some (.number (.number s r hr), rest) := by
  have hunsigned : (Binary64.number false r hr).isFinite = true := decide_eq_true hfinite
  have hnumeral : Binary64.ofNumeral (Binary64.number false r hr).shortest.toList =
      .number false r hr := (Binary64.numeral_write .roundTrip hunsigned rfl).2
  obtain ⟨d, hd, hscan⟩ := (real_shortest hunsigned rfl).exists_scanNumber
  rw [hnumeral, Binary64.ofDecimal, Binary64.ofRank] at hd
  obtain rfl : r = min d.rank topRank := (Binary64.number.inj hd).2
  rw [toList_shortest, List.append_assoc, hscan s rest stops]
  rfl

end Json

end Reckoner
