import Reckoner.Proofs.Json.Numbers
import Reckoner.Proofs.Postfix.Layout
import Reckoner.Proofs.Symbol.NaN

/-! # What the text of a program tells

The text of a program lists its instructions as words, and each word tells which instruction it is, up to
its place. The only thing that it does not tell is the sign of a NaN.

* **`Binary64.shortest_eq_iff`** — the numbers with the same text.
* **`Form`** — the forms of instructions; `Form.ofWord` tells them by their words.
* **`Instruction.Alike`** — instructions that are the same but for their places and the signs of NaNs
  (`Instruction.text_eq_iff`: those with the same word).
* **`Program.splitOn_text`** — the words of a program are found at the spaces of its text.
* **`Program.text_eq_iff`** — the programs with the same text.
* **`Program.Writable`** — a program whose text can be written. -/

namespace Reckoner

/-! ## The words of numbers -/

/-- The characters of numbers: those of numerals, and those of the words for infinity and NaN. -/
def isNumberChar (c : Char) : Bool := isNumeralChar c || ['n', 'a', 'i', 'f'].elem c

namespace Binary64

variable {x y : Binary64} {s t : Bool} {r q : Nat} {hr : r ≤ topRank} {hq : q ≤ topRank}

/-- The text of a finite magnitude is a numeral, which is read for it. -/
theorem numeral_shortest (hr : r ≤ topRank) (finite : r ≠ topRank) :
    Numeral (number false r hr).shortest.toList ∧
      ofNumeral (number false r hr).shortest.toList = number false r hr :=
  numeral_write .roundTrip (decide_eq_true (Nat.lt_of_le_of_ne hr finite)) rfl

/-- Infinity is written as a word. -/
@[simp] theorem shortest_topRank (h : topRank ≤ topRank) : (number false topRank h).shortest = "inf" := rfl

/-- The text of a magnitude begins with a digit, or with the first letter of the word for infinity. -/
theorem exists_head_shortest (r : Nat) (hr : r ≤ topRank) :
    ∃ c cs, (number false r hr).shortest.toList = c :: cs ∧ (c.isDigit = true ∨ c = 'i') := by
  by_cases htop : r = topRank
  · subst htop
    rw [shortest_topRank]
    exact ⟨'i', ['n', 'f'], by decide, .inr rfl⟩
  · have hfinite : (number false r hr).isFinite = true := decide_eq_true (Nat.lt_of_le_of_ne hr htop)
    obtain ⟨c, cs, hshortest, hdigit⟩ := (Json.real_shortest hfinite rfl).exists_digit
    exact ⟨c, cs, hshortest, .inl hdigit⟩

/-- **The text of a magnitude tells its rank**. -/
theorem rank_eq_of_shortest (h : (number false r hr).shortest = (number false q hq).shortest) : r = q := by
  -- the word for infinity is no numeral
  have hinfinity : ¬ Numeral "inf".toList := by
    intro hnumeral
    obtain ⟨c, cs, hword, hc⟩ := hnumeral.head
    obtain rfl : 'i' = c := (List.cons.inj hword).1
    rcases hc with hc | hc <;> cases hc
  by_cases hrtop : r = topRank
  · by_cases hqtop : q = topRank
    · rw [hrtop, hqtop]
    · subst hrtop
      have hnumeral := (numeral_shortest hq hqtop).1
      rw [← h] at hnumeral
      exact absurd hnumeral hinfinity
  · obtain ⟨hnumeral, hvalue⟩ := numeral_shortest hr hrtop
    by_cases hqtop : q = topRank
    · subst hqtop
      rw [h] at hnumeral
      exact absurd hnumeral hinfinity
    · obtain ⟨-, hvalue'⟩ := numeral_shortest hq hqtop
      rw [h, hvalue'] at hvalue
      exact (number.inj hvalue).2.symm

/-- The sign of a number is told by its text. -/
theorem sign_eq_of_shortest (h : (number s r hr).shortest = (number t q hq).shortest) :
    s = t ∧ (number false r hr).shortest = (number false q hq).shortest := by
  have hlist := congrArg String.toList h
  rw [Json.toList_shortest s, Json.toList_shortest t] at hlist
  -- no magnitude begins with a sign
  have hunsigned : ∀ (r : Nat) (hr : r ≤ topRank) cs, (number false r hr).shortest.toList ≠ '-' :: cs := by
    intro r hr cs hsign
    obtain ⟨c, cs', hhead, hc⟩ := exists_head_shortest r hr
    obtain rfl : c = '-' := (List.cons.inj (hhead.symm.trans hsign)).1
    rcases hc with hc | hc <;> cases hc
  cases s with
  | false =>
    cases t with
    | false => exact ⟨rfl, String.toList_inj.mp hlist⟩
    | true => exact absurd hlist (hunsigned r hr _)
  | true =>
    cases t with
    | false => exact absurd hlist.symm (hunsigned q hq _)
    | true => exact ⟨rfl, String.toList_inj.mp (List.cons.inj hlist).2⟩

/-- No number is written like NaN. -/
theorem shortest_ne_nan (s : Bool) (r : Nat) (hr : r ≤ topRank) : (number s r hr).shortest ≠ "nan" := by
  intro h
  have hlist := congrArg String.toList h
  rw [Json.toList_shortest] at hlist
  cases s with
  | true => cases (List.cons.inj hlist).1
  | false =>
    obtain ⟨c, cs, hhead, hc⟩ := exists_head_shortest r hr
    obtain rfl : c = 'n' := (List.cons.inj (hhead.symm.trans hlist)).1
    rcases hc with hc | hc <;> cases hc

/-- **Numbers with the same text** are alike. -/
@[simp] theorem shortest_eq_iff : x.shortest = y.shortest ↔ x.Alike y := by
  constructor
  · intro h
    cases x with
    | nan s =>
      cases y with
      | nan t => exact .nan s t
      | number t q hq => exact absurd h.symm (shortest_ne_nan t q hq)
    | number s r hr =>
      cases y with
      | nan t => exact absurd h (shortest_ne_nan s r hr)
      | number t q hq =>
        obtain ⟨rfl, hmagnitude⟩ := sign_eq_of_shortest h
        obtain rfl := rank_eq_of_shortest hmagnitude
        exact .refl _
  · rintro ⟨s, t⟩ <;> rfl

/-- The characters in the texts of numbers. -/
theorem isNumberChar_shortest (x : Binary64) : ∀ c ∈ x.shortest.toList, isNumberChar c = true := by
  have hwords : ∀ {w : List Char}, w.all isNumberChar = true → ∀ c ∈ w, isNumberChar c = true :=
    fun h => List.all_eq_true.mp h
  cases x with
  | nan s => exact hwords (by decide : "nan".toList.all isNumberChar = true)
  | number s r hr =>
    rw [Json.toList_shortest]
    refine List.forall_mem_append.mpr ⟨hwords (by cases s <;> rfl), ?_⟩
    by_cases htop : r = topRank
    · subst htop
      exact hwords (by decide : "inf".toList.all isNumberChar = true)
    · intro c hc
      have hchar := (numeral_shortest hr htop).1.isNumeralChar c hc
      rw [isNumberChar, hchar, Bool.true_or]

/-- There is a letter or a digit among them. -/
@[simp] theorem any_isAlphanum_shortest (x : Binary64) : x.shortest.toList.any Char.isAlphanum = true := by
  cases x with
  | nan s => exact (by decide : "nan".toList.any Char.isAlphanum = true)
  | number s r hr =>
    obtain ⟨c, cs, hhead, hc⟩ := exists_head_shortest r hr
    have hfirst : c.isAlphanum = true := by
      rcases hc with hc | rfl
      · rw [Char.isAlphanum, hc, Bool.or_true]
      · rfl
    rw [Json.toList_shortest, hhead, List.any_append, List.any_cons, hfirst, Bool.true_or, Bool.or_true]

end Binary64

/-! ## Words -/

/-- The **form** of an instruction. -/
inductive Form where
  | number
  | negate
  | operation
  | call
  | factorial
  deriving DecidableEq

/-- The form that a word tells: the signs are operators but for one, and what is left without a slash is a
number. -/
def Form.ofWord (w : List Char) : Form :=
  if w = "neg".toList then .negate
  else if w = "!".toList then .factorial
  else if w.any Char.isAlphanum then (if '/' ∈ w then .call else .number)
  else .operation

/-- **The symbols of operators differ**. -/
theorem Operator.symbol_injective {op op' : Operator} (h : op.symbol = op'.symbol) : op = op' := by
  have hdistinct : ∀ e ∈ lexemes, ∀ e' ∈ lexemes, e.1 = e'.1 → e.2 = e'.2 := by decide
  have hkind : op.tokenKind = op'.tokenKind :=
    hdistinct _ op.symbol_mem_lexemes _ op'.symbol_mem_lexemes (congrArg String.toList h)
  have hfound := op.operator?_tokenKind
  rw [hkind, op'.operator?_tokenKind] at hfound
  exact (Option.some.inj hfound).symm

namespace Instruction

/-- The form of an instruction that can be run. -/
def form? : Instruction → Option Form
  | .number .. => some .number
  | .negate _ => some .negate
  | .operation .. => some .operation
  | .call .. => some .call
  | .factorial _ => some .factorial
  | .unknown _ => none

/-- An instruction is **known** when it has a form. -/
def Known (i : Instruction) : Prop := i.form?.isSome = true

/-- Instructions are **alike** when they are the same but for their places and the signs of NaNs. -/
inductive Alike : Instruction → Instruction → Prop
  | number {x y : Binary64} (alike : x.Alike y) (span span' : Span) :
    Alike (.number x span) (.number y span')
  | negate (offset offset' : Int) : Alike (.negate offset) (.negate offset')
  | operation (op : Operator) (offset offset' : Int) : Alike (.operation op offset) (.operation op offset')
  | call (f : Function) (arity : Nat) (span span' : Span) : Alike (.call f arity span) (.call f arity span')
  | factorial (offset offset' : Int) : Alike (.factorial offset) (.factorial offset')

variable {i j : Instruction}

/-- The characters in the text of a call. -/
@[simp] theorem toList_text_call (f : Function) (arity : Nat) (span : Span) :
    (call f arity span).text.toList = f.name.toList ++ '/' :: Nat.toDigits 10 arity := by
  have hdigits : (toString arity).toList = Nat.toDigits 10 arity := Nat.toList_repr
  rw [text, String.toList_append, String.toList_append, hdigits, List.append_assoc]
  rfl

/-- No name holds a slash. -/
@[simp] theorem slash_not_mem_name (f : Function) : '/' ∉ f.name.toList := fun h => by
  cases f.isSmall_name '/' h

/-- **A word tells the form** of its instruction. -/
@[simp] theorem form?_eq (known : i.Known) : i.form? = some (Form.ofWord i.text.toList) := by
  cases i with
  | unknown shown => cases known
  | negate offset => exact (by decide : some Form.negate = some (Form.ofWord "neg".toList))
  | factorial offset => exact (by decide : some Form.factorial = some (Form.ofWord "!".toList))
  | operation op offset =>
    have hsymbols : ∀ op : Operator, Form.ofWord op.symbol.toList = .operation := by
      intro op
      cases op <;> decide
    exact congrArg some (hsymbols op).symm
  | number x span =>
    have hchars := x.isNumberChar_shortest
    have hneg : ¬ x.shortest.toList = "neg".toList := fun h => by
      cases hchars 'g' (by rw [h]; decide)
    have hbang : ¬ x.shortest.toList = "!".toList := fun h => by
      cases hchars '!' (by rw [h]; decide)
    have hslash : '/' ∉ x.shortest.toList := fun h => by cases hchars '/' h
    rw [text, Form.ofWord, if_neg hneg, if_neg hbang, if_pos x.any_isAlphanum_shortest, if_neg hslash]
    rfl
  | call f arity span =>
    have hslash : '/' ∈ (call f arity span).text.toList := by
      rw [toList_text_call]
      exact List.mem_append_right _ (List.mem_cons_self ..)
    have hneg : ¬ (call f arity span).text.toList = "neg".toList := fun h => by
      rw [h] at hslash
      exact absurd hslash (by decide)
    have hbang : ¬ (call f arity span).text.toList = "!".toList := fun h => by
      rw [h] at hslash
      exact absurd hslash (by decide)
    have hletter : (call f arity span).text.toList.any Char.isAlphanum = true := by
      have hnames : (Function.all.all fun f => f.name.toList.any Char.isAlphanum) = true := by decide
      rw [toList_text_call, List.any_append, List.all_eq_true.mp hnames f f.mem_all, Bool.true_or]
    rw [Form.ofWord, if_neg hneg, if_neg hbang, if_pos hletter, if_pos hslash]
    rfl

/-- The word of a call tells its function and the number of its arguments. -/
theorem eq_of_text_call {f g : Function} {m n : Nat} {span span' : Span}
    (h : (call f m span).text = (call g n span').text) : f = g ∧ m = n := by
  have hlist := congrArg String.toList h
  rw [toList_text_call, toList_text_call] at hlist
  -- digits have no slash either
  have hdigits : ∀ k, '/' ∉ Nat.toDigits 10 k := fun k hk => by cases digits_toDigits k '/' hk
  obtain ⟨hname, -, hsame⟩ :=
    (List.append_cons_inj_of_notMem (slash_not_mem_name f) (hdigits m)).mp hlist
  constructor
  · have hfound := function?_name f
    rw [String.toList_inj.mp hname, function?_name g] at hfound
    exact (Option.some.inj hfound).symm
  · rw [← digitsValue_toDigits m, hsame, digitsValue_toDigits]

/-- **Instructions with the same word** are alike. -/
theorem text_eq_iff (hi : i.Known) (hj : j.Known) : i.text = j.text ↔ i.Alike j := by
  constructor
  · intro h
    have hform : i.form? = j.form? := by rw [form?_eq hi, form?_eq hj, h]
    cases i with
    | unknown shown => cases hi
    | number x span =>
      cases j with
      | number y span' => exact .number (Binary64.shortest_eq_iff.mp h) span span'
      | _ => cases hform
    | negate offset =>
      cases j with
      | negate offset' => exact .negate offset offset'
      | _ => cases hform
    | operation op offset =>
      cases j with
      | operation op' offset' =>
        obtain rfl := Operator.symbol_injective h
        exact .operation op offset offset'
      | _ => cases hform
    | call f m span =>
      cases j with
      | call g n span' =>
        obtain ⟨rfl, rfl⟩ := eq_of_text_call h
        exact .call f m span span'
      | _ => cases hform
    | factorial offset =>
      cases j with
      | factorial offset' => exact .factorial offset offset'
      | _ => cases hform
  · intro h
    cases h with
    | number alike span span' => exact Binary64.shortest_eq_iff.mpr alike
    | _ => rfl

/-- No word is empty or has a space in it. -/
theorem text_isWord (known : i.Known) : i.text.toList ≠ [] ∧ ' ' ∉ i.text.toList := by
  cases i with
  | unknown shown => cases known
  | negate offset => exact (by decide : "neg".toList ≠ [] ∧ ' ' ∉ "neg".toList)
  | factorial offset => exact (by decide : "!".toList ≠ [] ∧ ' ' ∉ "!".toList)
  | operation op offset =>
    have hsymbols : ∀ op : Operator, op.symbol.toList ≠ [] ∧ ' ' ∉ op.symbol.toList := by
      intro op
      cases op <;> decide
    exact hsymbols op
  | number x span =>
    refine ⟨fun h => ?_, fun h => ?_⟩
    · have hany := x.any_isAlphanum_shortest
      rw [show x.shortest.toList = [] from h] at hany
      cases hany
    · cases x.isNumberChar_shortest ' ' h
  | call f arity span =>
    rw [toList_text_call]
    refine ⟨by simp, fun h => ?_⟩
    rcases List.mem_append.mp h with h | h
    · cases f.isSmall_name ' ' h
    · rcases List.mem_cons.mp h with h | h
      · cases h
      · cases digits_toDigits arity ' ' h

/-- Sequences of instructions with the same words are alike, one by one. -/
theorem map_text_eq_iff {is js : List Instruction} (his : ∀ i ∈ is, i.Known) (hjs : ∀ j ∈ js, j.Known) :
    is.map text = js.map text ↔ List.Forall₂ Alike is js := by
  constructor
  · intro h
    induction is generalizing js with
    | nil =>
      rw [List.map_eq_nil_iff.mp h.symm]
      exact .nil
    | cons i is ih =>
      obtain ⟨j, js, rfl, hword, hwords⟩ := List.map_eq_cons_iff.mp h.symm
      obtain ⟨hi, his⟩ := List.forall_mem_cons.mp his
      obtain ⟨hj, hjs⟩ := List.forall_mem_cons.mp hjs
      exact .cons ((text_eq_iff hi hj).mp hword.symm) (ih his hjs hwords.symm)
  · intro h
    induction h with
    | nil => rfl
    | cons first rest ih =>
      obtain ⟨hi, his⟩ := List.forall_mem_cons.mp his
      obtain ⟨hj, hjs⟩ := List.forall_mem_cons.mp hjs
      rw [List.map_cons, List.map_cons, (text_eq_iff hi hj).mpr first, ih his hjs]

end Instruction

/-! ## Texts -/

namespace Program

/-- A program is **known** when all its instructions are. -/
def Known (p : Program) : Prop := ∀ i ∈ p.instructions, i.Known

instance (p : Program) : Decidable p.Known :=
  inferInstanceAs (Decidable (∀ i ∈ p.instructions, i.form?.isSome = true))

variable {p q : Program}

/-- **The words of a program** are what its text is split into at the spaces. -/
@[simp] theorem splitOn_text (known : p.Known) (nonempty : p.instructions ≠ []) :
    (p.text.toList.splitOn ' ').map String.ofList = p.instructions.map Instruction.text := by
  have hsplit : p.text.toList.splitOn ' ' = (p.instructions.map Instruction.text).map String.toList := by
    rw [text, String.toList_intercalate]
    refine List.splitOn_intercalate ' ' ?_ (by simpa using nonempty)
    intro w hw
    rw [List.map_map] at hw
    obtain ⟨i, hi, rfl⟩ := List.mem_map.mp hw
    exact (Instruction.text_isWord (known i hi)).2
  rw [hsplit, List.map_map]
  exact List.map_id'' (fun _ => String.ofList_toList) _

/-- Only the text of a program without instructions is empty. -/
@[simp] theorem text_eq_empty_iff (known : p.Known) : p.text = "" ↔ p.instructions = [] := by
  constructor
  · intro h
    by_contra nonempty
    have hsplit := splitOn_text known nonempty
    obtain ⟨i, is, his⟩ := List.exists_cons_of_ne_nil nonempty
    rw [h, his, List.map_cons] at hsplit
    -- the empty text is one empty word
    have hempty : String.ofList [] = i.text := (List.cons.inj hsplit).1
    have hi : i ∈ p.instructions := by rw [his]; exact List.mem_cons_self ..
    refine (Instruction.text_isWord (known i hi)).1 ?_
    rw [← hempty, String.toList_ofList]
  · intro h
    rw [text, h]
    rfl

/-- **Programs with the same text** are alike, instruction by instruction. -/
theorem text_eq_iff (hp : p.Known) (hq : q.Known) :
    p.text = q.text ↔ List.Forall₂ Instruction.Alike p.instructions q.instructions := by
  rw [← Instruction.map_text_eq_iff hp hq]
  constructor
  · intro h
    by_cases hempty : p.text = ""
    · rw [(text_eq_empty_iff hp).mp hempty, (text_eq_empty_iff hq).mp (h ▸ hempty)]
    · have hne : p.instructions ≠ [] := fun hnil => hempty ((text_eq_empty_iff hp).mpr hnil)
      have hne' : q.instructions ≠ [] := fun hnil => hempty (h.trans ((text_eq_empty_iff hq).mpr hnil))
      rw [← splitOn_text hp hne, ← splitOn_text hq hne', h]
  · intro h
    rw [text, text, h]

/-! ## Texts that can be written -/

/-- A program is **writable** when no arity in it has too many digits. -/
def Writable (p : Program) : Prop := ∀ i ∈ p.instructions, i.isOverlong = false

instance (p : Program) : Decidable p.Writable :=
  inferInstanceAs (Decidable (∀ i ∈ p.instructions, i.isOverlong = false))

/-- The words of a writable program. -/
@[simp] theorem listed_of_writable (h : p.Writable) :
    p.listed = .ok (p.instructions.map Instruction.text) := by
  rw [Writable] at h
  rw [listed]
  generalize p.instructions = is at h ⊢
  induction is with
  | nil => rfl
  | cons i is ih =>
    obtain ⟨hi, his⟩ := List.forall_mem_cons.mp h
    rw [List.mapM_cons, ih his, Instruction.written, if_neg (Bool.not_eq_true _ ▸ hi)]
    rfl

/-- The words of other programs cannot all be written. -/
@[simp] theorem listed_of_not_writable (h : ¬ p.Writable) : p.listed = .error .digitsWritten := by
  rw [Writable] at h
  rw [listed]
  generalize p.instructions = is at h ⊢
  induction is with
  | nil => exact absurd (List.forall_mem_nil _) h
  | cons i is ih =>
    rw [List.mapM_cons, Instruction.written]
    cases hi : i.isOverlong with
    | true => rfl
    | false =>
      rw [ih fun his => h (List.forall_mem_cons.mpr ⟨hi, his⟩)]
      rfl

/-- The text of a writable program. -/
@[simp] theorem written_of_writable (h : p.Writable) : p.written = .ok p.text := by
  rw [written, listed_of_writable h]
  rfl

/-- The text of other programs cannot be written. -/
@[simp] theorem written_of_not_writable (h : ¬ p.Writable) : p.written = .error .digitsWritten := by
  rw [written, listed_of_not_writable h]
  rfl

/-- What is written is the text of a writable program. -/
theorem written_eq_ok_iff {s : String} : p.written = .ok s ↔ p.Writable ∧ p.text = s := by
  by_cases h : p.Writable
  · rw [written_of_writable h, Except.ok.injEq]
    exact (and_iff_right h).symm
  · rw [written_of_not_writable h]
    exact iff_of_false nofun fun hs => h hs.1

/-- Programs that are alike are both writable, or neither is. -/
theorem Writable.of_alike (h : p.Writable)
    (alike : List.Forall₂ Instruction.Alike p.instructions q.instructions) : q.Writable := by
  rw [Writable] at h ⊢
  generalize p.instructions = is, q.instructions = js at h alike ⊢
  induction alike with
  | nil => exact List.forall_mem_nil _
  | @cons i j is js first rest ih =>
    obtain ⟨hi, his⟩ := List.forall_mem_cons.mp h
    have hj : j.isOverlong = i.isOverlong := by cases first <;> rfl
    exact List.forall_mem_cons.mpr ⟨hj.trans hi, ih his⟩

/-- Two programs have the **same text** when it can be written. -/
def SameText (p q : Program) : Prop := ∃ s, p.written = .ok s ∧ q.written = .ok s

/-- **Programs with the same written text** are writable and alike, instruction by instruction. -/
theorem sameText_iff (hp : p.Known) (hq : q.Known) :
    p.SameText q ↔ p.Writable ∧ List.Forall₂ Instruction.Alike p.instructions q.instructions := by
  rw [← text_eq_iff hp hq]
  constructor
  · rintro ⟨s, hs, hs'⟩
    obtain ⟨hwritable, hs⟩ := written_eq_ok_iff.mp hs
    exact ⟨hwritable, hs.trans (written_eq_ok_iff.mp hs').2.symm⟩
  · rintro ⟨hwritable, htext⟩
    have hother : q.Writable := hwritable.of_alike ((text_eq_iff hp hq).mp htext)
    exact ⟨p.text, written_of_writable hwritable, htext ▸ written_of_writable hother⟩

end Program

end Reckoner
