import Reckoner.Proofs.Json.Numbers
import Reckoner.Proofs.Json.Strings

/-! # Documents are read back from JSON

A document can be written in JSON in many ways, which differ in the blanks between its parts. Each of
them is read as the same document, however deep it is.

* **`Document.Faithful`** — the documents that JSON can hold: there is no moment in them, no NaN with a
  sign, and no key twice in a table.
* **`Json.Spells`** — a text spells a document, with any blanks between the parts.
* **`Json.Spells.read?_eq`** — what spells a document is read as the document.
* **`Json.spells_prettyAt`, `Json.spells_compactText`** — what is written for a faithful document spells it.
* **`Json.read?_pretty`, `Json.read?_compact`** — what is written is read back. -/

namespace Reckoner

/-! ## Faithful documents -/

namespace Document

mutual

/-- A document is **faithful** when JSON can hold it: it has no moment, no NaN with a sign, and no key
twice in a table. -/
def Faithful : Document → Prop
  | .moment _ => False
  | .number x => x ≠ .nan true
  | .list ds => AllFaithful ds
  | .table es => (es.map Prod.fst).Nodup ∧ AllEntriesFaithful es
  | _ => True

/-- All items of a list are faithful. -/
def AllFaithful : List Document → Prop
  | [] => True
  | d :: ds => d.Faithful ∧ AllFaithful ds

/-- All entries of a table are faithful. -/
def AllEntriesFaithful : List (String × Document) → Prop
  | [] => True
  | (_, d) :: es => d.Faithful ∧ AllEntriesFaithful es

end

/-- A document without parts that JSON can hold. -/
inductive Scalar : Document → Prop
  | null : Scalar .null
  | boolean (value : Bool) : Scalar (.boolean value)
  | integer (value : Int) : Scalar (.integer value)
  | number {value : Binary64} (unsigned : value ≠ .nan true) : Scalar (.number value)
  | text (value : String) : Scalar (.text value)

/-- An entry with a new key comes after all others. -/
@[simp] theorem put_of_not_mem {key : String} {value : Document} {es : List (String × Document)}
    (h : key ∉ es.map Prod.fst) : put key value es = es ++ [(key, value)] := by
  induction es with
  | nil => rfl
  | cons e es ih =>
    obtain ⟨k, v⟩ := e
    rw [List.map_cons, List.mem_cons, not_or] at h
    rw [put, if_neg (Ne.symm h.1), ih h.2]
    rfl

end Document

namespace Json

/-! ## Spellings -/

/-- A text of **blanks**. -/
def Gap (g : List Char) : Prop := ∀ c ∈ g, isBlank c = true

/-- A gap is passed over. -/
@[simp] theorem Gap.skipBlank_eq {g : List Char} (h : Gap g) {c : Char} (hc : isBlank c = false)
    (rest : List Char) : skipBlank (g ++ c :: rest) = c :: rest := by
  rw [skipBlank, List.dropWhile_append_of_pos h,
    List.dropWhile_cons_of_neg (by rw [hc]; exact Bool.false_ne_true)]

mutual

/-- A text **spells** a document: it is JSON for it, with any blanks after brackets and commas and before
closing brackets. -/
inductive Spells : Document → List Char → Prop
  | scalar {d : Document} (h : d.Scalar) : Spells d (atom d)
  | noItems : Spells (.list []) ['[', ']']
  | noEntries : Spells (.table []) ['\x7b', '\x7d']
  | list {d : Document} {ds : List Document} {g t ts g' : List Char} (opening : Gap g)
      (first : Spells d t) (more : SpellsItems ds ts) (closing : Gap g') :
      Spells (.list (d :: ds)) ('[' :: (g ++ t ++ ts ++ g' ++ [']']))
  | table {k : String} {d : Document} {es : List (String × Document)} {g t ts g' : List Char}
      (opening : Gap g) (first : Spells d t) (more : SpellsEntries es ts) (closing : Gap g')
      (distinct : (((k, d) :: es).map Prod.fst).Nodup) :
      Spells (.table ((k, d) :: es)) ('\x7b' :: (g ++ quote k ++ afterKey ++ t ++ ts ++ g' ++ ['\x7d']))

/-- A text spells further items of a list. -/
inductive SpellsItems : List Document → List Char → Prop
  | nil : SpellsItems [] []
  | cons {d : Document} {ds : List Document} {g t ts : List Char} (between : Gap g)
      (first : Spells d t) (more : SpellsItems ds ts) :
      SpellsItems (d :: ds) (',' :: (g ++ t ++ ts))

/-- A text spells further entries of a table. -/
inductive SpellsEntries : List (String × Document) → List Char → Prop
  | nil : SpellsEntries [] []
  | cons {k : String} {d : Document} {es : List (String × Document)} {g t ts : List Char}
      (between : Gap g) (first : Spells d t) (more : SpellsEntries es ts) :
      SpellsEntries ((k, d) :: es) (',' :: (g ++ quote k ++ afterKey ++ t ++ ts))

end

/-! ## Reading scalars -/

/-- **A quoted text reads back**. -/
@[simp] theorem scanString_quote (s : String) (rest : List Char) :
    scanString [] (s.toList.flatMap escapeChar ++ '"' :: rest) = some (s, rest) := by
  rw [scanString_escaped, List.reverse_nil, List.nil_append, String.ofList_toList]

/-- And so does one that is a value. -/
@[simp] theorem scanValue_quote (s : String) (fuel : Nat) (rest : List Char) :
    scanValue (fuel + 1) (quote s ++ rest) = some (.text s, rest) := by
  have htext : quote s ++ rest = '"' :: (s.toList.flatMap escapeChar ++ '"' :: rest) := by
    rw [quote, List.cons_append, List.append_assoc, List.singleton_append]
  rw [htext, scanValue, scanString_quote]
  rfl

/-- The words for values read back. -/
theorem scanValue_word {word : List Char} {d : Document} (h : (word, d) ∈ words) (fuel : Nat)
    (rest : List Char) : scanValue (fuel + 1) (word ++ rest) = some (d, rest) := by
  simp only [words, List.mem_cons, List.not_mem_nil, or_false, Prod.mk.injEq] at h
  rcases h with ⟨rfl, rfl⟩ | ⟨rfl, rfl⟩ | ⟨rfl, rfl⟩ | ⟨rfl, rfl⟩ | ⟨rfl, rfl⟩ | ⟨rfl, rfl⟩
  all_goals rfl

/-- The words begin otherwise than numbers. -/
@[simp] theorem find?_words_of_digit (negative : Bool) {c : Char} (digit : c.isDigit = true)
    (cs : List Char) :
    words.find? (fun (word, _) => word.isPrefixOf (signText negative ++ c :: cs)) = none := by
  have hne : ∀ x : Char, x.isDigit = false → (x == c) = false := by
    intro x hx
    refine beq_eq_false_iff_ne.mpr ?_
    rintro rfl
    rw [hx] at digit
    cases digit
  have hhyphen := hne '-' rfl
  cases negative <;>
    simp [words, signText, List.isPrefixOf, hne 'n' rfl, hne 't' rfl, hne 'f' rfl, hne 'N' rfl,
      hne 'I' rfl, hhyphen]

/-- Digits, perhaps after a hyphen, are read as a number. -/
theorem scanValue_number (negative : Bool) {c : Char} {cs rest : List Char} {d : Document}
    (digit : c.isDigit = true)
    (hscan : scanNumber (signText negative ++ c :: cs) = some (d, rest)) (fuel : Nat) :
    scanValue (fuel + 1) (signText negative ++ c :: cs) = some (d, rest) := by
  -- the text begins with no quote or bracket, and with no word
  have hhead : ∀ x r, signText negative ++ c :: cs = x :: r → x = '-' ∨ x.isDigit = true := by
    intro x r hx
    cases negative with
    | true =>
      cases hx
      exact .inl rfl
    | false =>
      cases hx
      exact .inr digit
  rw [scanValue.eq_def]
  dsimp only
  split
  · next hx => exact absurd (hhead _ _ hx) (by decide)
  · next hx => exact absurd (hhead _ _ hx) (by decide)
  · next hx => exact absurd (hhead _ _ hx) (by decide)
  · rw [find?_words_of_digit negative digit]
    exact hscan

/-- An integer is spelt by its digits. -/
@[simp] theorem atom_integer (n : Int) : atom (.integer n) = (toString n).toList := rfl

/-- A number is spelt by its text. -/
@[simp] theorem atom_number (x : Binary64) : atom (.number x) = (numberText x).toList := rfl

/-- The text of a number is a word, or it is the shortest text of the number: digits, perhaps after a
hyphen. -/
theorem numberText_cases {x : Binary64} (unsigned : x ≠ .nan true) :
    (atom (.number x), .number x) ∈ words ∨ ∃ s r hr negative c cs, x = .number s r hr ∧ r < topRank ∧
      atom (.number x) = x.shortest.toList ∧ x.shortest.toList = signText negative ++ c :: cs ∧
        c.isDigit = true := by
  cases x with
  | nan s =>
    cases s with
    | true => exact absurd rfl unsigned
    | false =>
      have hword : ("NaN".toList, Document.number (.nan false)) ∈ words :=
        .tail _ (.tail _ (.tail _ (.head _)))
      exact .inl hword
  | number s r hr =>
    by_cases htop : r < topRank
    · have hfinite : (Binary64.number s r hr).isFinite = true := decide_eq_true htop
      have htext : atom (.number (.number s r hr)) = (Binary64.number s r hr).shortest.toList := by
        rw [atom_number, numberText, Binary64.isNaN_number, if_neg Bool.false_ne_true, if_pos hfinite]
      obtain ⟨c, cs, hdigits, digit⟩ :=
        (real_shortest (x := .number false r hr) (decide_eq_true htop) rfl).exists_digit
      exact .inr ⟨s, r, hr, s, c, cs, rfl, htop, htext, by rw [toList_shortest, hdigits], digit⟩
    · obtain rfl : r = topRank := Nat.le_antisymm hr (Nat.le_of_not_lt htop)
      cases s with
      | true =>
        have hword : ("-Infinity".toList, Document.number (.infinity true)) ∈ words :=
          .tail _ (.tail _ (.tail _ (.tail _ (.tail _ (.head _)))))
        exact .inl hword
      | false =>
        have hword : ("Infinity".toList, Document.number (.infinity false)) ∈ words :=
          .tail _ (.tail _ (.tail _ (.tail _ (.head _))))
        exact .inl hword

/-- **A scalar is read** up to what stops a number. -/
@[simp] theorem scanValue_atom {d : Document} (h : d.Scalar) {rest : List Char} (stops : Stops rest)
    (fuel : Nat) : scanValue (fuel + 1) (atom d ++ rest) = some (d, rest) := by
  cases h with
  | null => exact scanValue_word (.head _) fuel rest
  | boolean b =>
    cases b with
    | true => exact scanValue_word (.tail _ (.head _)) fuel rest
    | false => exact scanValue_word (.tail _ (.tail _ (.head _))) fuel rest
  | text s => exact scanValue_quote s fuel rest
  | integer n =>
    have hscan := scanNumber_integer n stops
    obtain ⟨c, cs, hdigits⟩ := List.exists_cons_of_ne_nil (whole_toDigits n.natAbs).ne_nil
    have digit : c.isDigit = true := digits_toDigits n.natAbs c (by rw [hdigits]; simp)
    rw [toList_toString_int, hdigits, List.append_assoc, List.cons_append] at hscan
    rw [atom_integer, toList_toString_int, hdigits, List.append_assoc, List.cons_append]
    exact scanValue_number _ digit hscan fuel
  | number unsigned =>
    obtain hword | ⟨s, r, hr, negative, c, cs, rfl, htop, htext, hdigits, digit⟩ :=
      numberText_cases unsigned
    · exact scanValue_word hword fuel rest
    · have hscan := scanNumber_number s hr htop stops
      rw [hdigits, List.append_assoc, List.cons_append] at hscan
      rw [htext, hdigits, List.append_assoc, List.cons_append]
      exact scanValue_number negative digit hscan fuel

/-! ## Reading lists and tables -/

/-- A text that begins a value of a list: with neither a blank nor a closing bracket. -/
def Begins (cs : List Char) : Prop :=
  ∃ c rest, cs = c :: rest ∧ isBlank c = false ∧ c ≠ ']'

/-- A value begins with a character that is no blank and does not close a list. -/
theorem begins_cons {c : Char} (hblank : isBlank c = false) (hclose : c ≠ ']') (rest : List Char) :
    Begins (c :: rest) := ⟨c, rest, rfl, hblank, hclose⟩

/-- Numbers begin so. -/
theorem begins_signed (negative : Bool) {c : Char} (digit : c.isDigit = true) (cs : List Char) :
    Begins (signText negative ++ c :: cs) := by
  cases negative with
  | true => exact begins_cons rfl (by decide) _
  | false =>
    have hne : ∀ x : Char, x.isDigit = false → c ≠ x := by
      rintro x hx rfl
      rw [hx] at digit
      cases digit
    refine begins_cons ?_ (hne ']' rfl) _
    simp [isBlank, hne ' ' rfl, hne '\t' rfl, hne '\n' rfl, hne '\r' rfl]

/-- And words. -/
theorem begins_word {word : List Char} {d : Document} (h : (word, d) ∈ words) : Begins word := by
  have hwords : ∀ e ∈ words, Begins e.1 := by simp [words, Begins, isBlank]
  exact hwords _ h

/-- And so do all values that are not made of others. -/
theorem begins_atom {d : Document} (h : d.Scalar) : Begins (atom d) := by
  cases h with
  | null => exact begins_word (.head _)
  | boolean b =>
    cases b with
    | true => exact begins_word (.tail _ (.head _))
    | false => exact begins_word (.tail _ (.tail _ (.head _)))
  | text s => exact begins_cons rfl (by decide) _
  | integer n =>
    obtain ⟨c, cs, hdigits⟩ := List.exists_cons_of_ne_nil (whole_toDigits n.natAbs).ne_nil
    have digit : c.isDigit = true := digits_toDigits n.natAbs c (by rw [hdigits]; simp)
    rw [atom_integer, toList_toString_int, hdigits]
    exact begins_signed _ digit cs
  | number unsigned =>
    obtain hword | ⟨s, r, hr, negative, c, cs, rfl, htop, htext, hdigits, digit⟩ :=
      numberText_cases unsigned
    · exact begins_word hword
    · rw [htext, hdigits]
      exact begins_signed negative digit cs

/-- And those that are. -/
theorem Spells.begins {d : Document} {t : List Char} (h : Spells d t) : Begins t := by
  cases h with
  | scalar hd => exact begins_atom hd
  | _ => exact begins_cons rfl (by decide) _

/-- A text **reads back** as a document when it is read up to whatever stops a number, with as much fuel
as it has characters. -/
structure ReadsBack (d : Document) (t : List Char) : Prop where
  begins : Begins t
  scan : ∀ fuel rest, t.length ≤ fuel → Stops rest → scanValue fuel (t ++ rest) = some (d, rest)

/-- A gap before a value is passed over. -/
theorem Begins.skipBlank_eq {t g : List Char} (h : Begins t) (gap : Gap g) (rest : List Char) :
    skipBlank (g ++ (t ++ rest)) = t ++ rest := by
  obtain ⟨c, t', rfl, hblank, -⟩ := h
  exact gap.skipBlank_eq hblank (t' ++ rest)

/-- A number stops at a character that is none of its own. -/
theorem stops_cons {c : Char} (h : c.isDigit = false ∧ c ≠ '.' ∧ c ≠ 'e' ∧ c ≠ 'E') (rest : List Char) :
    Stops (c :: rest) := by
  intro c' hc
  cases hc
  exact h

/-- Blanks and what comes after them stop a number. -/
theorem Gap.stops {g : List Char} (h : Gap g) {rest : List Char} (stops : Stops rest) :
    Stops (g ++ rest) := by
  cases g with
  | nil => exact stops
  | cons c g =>
    have hc := h c (List.mem_cons_self ..)
    simp only [isBlank, Bool.or_eq_true, decide_eq_true_eq] at hc
    refine stops_cons ?_ (g ++ rest)
    rcases hc with ((rfl | rfl) | rfl) | rfl <;> decide

/-- It stops at the items that follow. -/
theorem SpellsItems.stops {ds : List Document} {ts : List Char} (h : SpellsItems ds ts)
    {rest : List Char} (stops : Stops rest) : Stops (ts ++ rest) := by
  cases h with
  | nil => exact stops
  | cons => exact stops_cons (by decide) _

/-- And at the entries that follow. -/
theorem SpellsEntries.stops {es : List (String × Document)} {ts : List Char}
    (h : SpellsEntries es ts) {rest : List Char} (stops : Stops rest) : Stops (ts ++ rest) := by
  cases h with
  | nil => exact stops
  | cons => exact stops_cons (by decide) _

/-- The first value of a list is not its end. -/
theorem scanValue_list {t : List Char} (h : Begins t) {g : List Char} (opening : Gap g) (fuel : Nat)
    (rest : List Char) :
    scanValue (fuel + 1) ('[' :: (g ++ (t ++ rest))) = scanItems fuel [] (t ++ rest) := by
  rw [scanValue, h.skipBlank_eq opening]
  obtain ⟨c, t', rfl, -, hclose⟩ := h
  rw [List.cons_append]
  split
  · next heq => exact absurd (List.cons.inj heq).1 hclose
  · rfl

/-- The first key of a table is not its end. -/
@[simp] theorem scanValue_table (k : String) {g : List Char} (opening : Gap g) (fuel : Nat)
    (rest : List Char) :
    scanValue (fuel + 1) ('\x7b' :: (g ++ (quote k ++ rest))) = scanEntries fuel [] (quote k ++ rest) := by
  have hquote : skipBlank (g ++ (quote k ++ rest)) = quote k ++ rest := opening.skipBlank_eq rfl _
  rw [scanValue, hquote]
  rfl

/-- An item is read. -/
theorem scanItems_item {d : Document} {t : List Char} (first : ReadsBack d t) {fuel : Nat}
    (read : List Document) {rest : List Char} (enough : t.length ≤ fuel) (stops : Stops rest) :
    scanItems (fuel + 1) read (t ++ rest) =
      match skipBlank rest with
      | ',' :: rest => scanItems fuel (d :: read) (skipBlank rest)
      | ']' :: rest => some (.list (d :: read).reverse, rest)
      | _ => none := by
  rewrite [scanItems, first.scan fuel rest enough stops]
  rfl

/-- The key of an entry is read, and then its value. -/
theorem scanEntries_entry {k : String} {d : Document} {t : List Char} (first : ReadsBack d t)
    {fuel : Nat} (read : List (String × Document)) {rest : List Char} (enough : t.length ≤ fuel)
    (stops : Stops rest) :
    scanEntries (fuel + 1) read (quote k ++ (afterKey ++ (t ++ rest))) =
      match skipBlank rest with
      | ',' :: rest => scanEntries fuel (Document.put k d read) (skipBlank rest)
      | '\x7d' :: rest => some (.table (Document.put k d read), rest)
      | _ => none := by
  have htext : quote k ++ (afterKey ++ (t ++ rest)) =
      '"' :: (k.toList.flatMap escapeChar ++ '"' :: (':' :: ' ' :: (t ++ rest))) := by
    simp [quote, afterKey]
  have hgap : skipBlank (' ' :: (t ++ rest)) = t ++ rest :=
    first.begins.skipBlank_eq (g := [' ']) (List.forall_mem_singleton.mpr rfl) rest
  have hcolon : skipBlank (':' :: ' ' :: (t ++ rest)) = ':' :: ' ' :: (t ++ rest) := rfl
  have hread := scanEntries.eq_2 read fuel (k.toList.flatMap escapeChar ++ '"' :: ':' :: ' ' :: (t ++ rest))
  rw [scanString_quote] at hread
  simp only [hcolon, hgap, first.scan fuel rest enough stops] at hread
  rw [htext]
  exact hread

mutual

/-- **What spells a document reads back** as the document. -/
theorem Spells.readsBack {d : Document} {t : List Char} (h : Spells d t) : ReadsBack d t := by
  refine ⟨h.begins, fun fuel rest enough stops => ?_⟩
  obtain ⟨fuel, rfl⟩ : ∃ f, fuel = f + 1 := by
    obtain ⟨c, t', rfl, -⟩ := h.begins
    exact Nat.exists_eq_succ_of_ne_zero (Nat.ne_of_gt (Nat.lt_of_lt_of_le (Nat.succ_pos _) enough))
  match h with
  | .scalar hd => exact scanValue_atom hd stops fuel
  | .noItems => rfl
  | .noEntries => rfl
  | @Spells.list d ds g t ts g' opening first more closing =>
    have htext : '[' :: (g ++ t ++ ts ++ g' ++ [']']) ++ rest =
        '[' :: (g ++ (t ++ (ts ++ (g' ++ ']' :: rest)))) := by simp
    rw [htext, scanValue_list first.begins opening]
    exact more.scanItems_eq first.readsBack fuel [] closing rest (by simp at enough ⊢; omega)
  | @Spells.table k d es g t ts g' opening first more closing distinct =>
    have htext : '\x7b' :: (g ++ quote k ++ afterKey ++ t ++ ts ++ g' ++ ['\x7d']) ++ rest =
        '\x7b' :: (g ++ (quote k ++ (afterKey ++ (t ++ (ts ++ (g' ++ '\x7d' :: rest)))))) := by simp
    rw [htext, scanValue_table k opening]
    exact more.scanEntries_eq first.readsBack fuel [] closing rest distinct
      (by simp at enough ⊢; omega)

/-- The items of a list are read one after the other. -/
theorem SpellsItems.scanItems_eq {ds : List Document} {ts : List Char} (h : SpellsItems ds ts)
    {d : Document} {t : List Char} (first : ReadsBack d t) (fuel : Nat) (read : List Document)
    {g : List Char} (closing : Gap g) (rest : List Char)
    (enough : t.length + ts.length < fuel) :
    scanItems fuel read (t ++ (ts ++ (g ++ ']' :: rest))) =
      some (.list (read.reverse ++ d :: ds), rest) := by
  have hclose : Stops (g ++ ']' :: rest) := closing.stops (stops_cons (by decide) rest)
  obtain ⟨fuel, rfl⟩ : ∃ f, fuel = f + 1 := Nat.exists_eq_succ_of_ne_zero (by omega)
  rw [scanItems_item first read (by omega) (h.stops hclose)]
  match h with
  | .nil =>
    rw [List.nil_append, closing.skipBlank_eq rfl]
    exact congrArg (fun ds => some (Document.list ds, rest)) List.reverse_cons
  | @SpellsItems.cons d' ds g' t' ts between next more =>
    have htext : ',' :: (g' ++ t' ++ ts) ++ (g ++ ']' :: rest) =
        ',' :: (g' ++ (t' ++ (ts ++ (g ++ ']' :: rest)))) := by simp
    have hcomma : ∀ cs, skipBlank (',' :: cs) = ',' :: cs := fun _ => rfl
    rw [htext, hcomma]
    show scanItems fuel (d :: read) (skipBlank (g' ++ (t' ++ _))) = _
    rw [next.begins.skipBlank_eq between,
      more.scanItems_eq next.readsBack fuel (d :: read) closing rest (by simp at enough ⊢; omega)]
    simp

/-- The entries of a table are read one after the other. -/
theorem SpellsEntries.scanEntries_eq {es : List (String × Document)} {ts : List Char}
    (h : SpellsEntries es ts) {k : String} {d : Document} {t : List Char} (first : ReadsBack d t)
    (fuel : Nat) (read : List (String × Document)) {g : List Char} (closing : Gap g)
    (rest : List Char) (distinct : ((read ++ (k, d) :: es).map Prod.fst).Nodup)
    (enough : t.length + ts.length < fuel) :
    scanEntries fuel read (quote k ++ (afterKey ++ (t ++ (ts ++ (g ++ '\x7d' :: rest))))) =
      some (.table (read ++ (k, d) :: es), rest) := by
  have hclose : Stops (g ++ '\x7d' :: rest) := closing.stops (stops_cons (by decide) rest)
  have hnew : k ∉ read.map Prod.fst := by
    rw [List.map_append, List.map_cons] at distinct
    exact fun hk => (List.nodup_append.mp distinct).2.2 k hk k (List.mem_cons_self ..) rfl
  obtain ⟨fuel, rfl⟩ : ∃ f, fuel = f + 1 := Nat.exists_eq_succ_of_ne_zero (by omega)
  rw [scanEntries_entry first read (by omega) (h.stops hclose),
    Document.put_of_not_mem hnew]
  match h with
  | .nil =>
    rw [List.nil_append, closing.skipBlank_eq rfl]
    rfl
  | @SpellsEntries.cons k' d' es g' t' ts between next more =>
    have htext : ',' :: (g' ++ quote k' ++ afterKey ++ t' ++ ts) ++ (g ++ '\x7d' :: rest) =
        ',' :: (g' ++ (quote k' ++ (afterKey ++ (t' ++ (ts ++ (g ++ '\x7d' :: rest)))))) := by simp
    have hcomma : ∀ cs, skipBlank (',' :: cs) = ',' :: cs := fun _ => rfl
    have hquote : ∀ cs, skipBlank (g' ++ (quote k' ++ cs)) = quote k' ++ cs :=
      fun cs => between.skipBlank_eq rfl _
    rw [htext, hcomma]
    show scanEntries fuel (read ++ [(k, d)]) (skipBlank (g' ++ (quote k' ++ _))) = _
    rw [hquote, more.scanEntries_eq next.readsBack fuel (read ++ [(k, d)]) closing rest
      (by simpa using distinct) (by simp at enough ⊢; omega)]
    simp

end

/-- **What spells a document is read** as the document, with blanks around it or not. -/
theorem Spells.read?_eq {d : Document} {t : List Char} (h : Spells d t) {g g' : List Char}
    (before : Gap g) (after : Gap g') : read? (String.ofList (g ++ (t ++ g'))) = some d := by
  have hstops : Stops g' := by
    have hnil : Stops [] := fun _ hc => nomatch hc
    have hgap := after.stops hnil
    rwa [List.append_nil] at hgap
  have hrest : skipBlank g' = [] := List.dropWhile_eq_nil_iff.mpr after
  have hscan : scanValue ((g ++ (t ++ g')).length + 1) (t ++ g') = some (d, g') :=
    h.readsBack.scan _ g' (by simp; omega) hstops
  rw [read?, String.toList_ofList]
  simp only [h.begins.skipBlank_eq before, hscan, hrest]
  rfl

/-! ## Writing -/

/-- Nothing is a gap. -/
@[simp] theorem gap_nil : Gap [] := fun _ hc => nomatch hc

/-- A blank is one. -/
@[simp] theorem gap_space : Gap [' '] := List.forall_mem_singleton.mpr rfl

/-- And so is a new line. -/
@[simp] theorem gap_newline (level : Nat) : Gap (newline level) := by
  intro c hc
  rcases List.mem_cons.mp hc with rfl | hc
  · rfl
  · rw [List.eq_of_mem_replicate hc]
    rfl

mutual

/-- **What is written over several lines** spells the document. -/
theorem spells_prettyAt (level : Nat) (d : Document) (h : d.Faithful) :
    Spells d (prettyAt level d) := by
  match d with
  | .null => exact .scalar .null
  | .boolean b => exact .scalar (.boolean b)
  | .integer n => exact .scalar (.integer n)
  | .number x => exact .scalar (.number h)
  | .text s => exact .scalar (.text s)
  | .moment s => exact h.elim
  | .list [] => exact .noItems
  | .table [] => exact .noEntries
  | .list (d :: ds) =>
    exact .list (gap_newline _) (spells_prettyAt (level + 1) d h.1)
      (spellsItems_pretty (level + 1) ds h.2) (gap_newline _)
  | .table ((k, d) :: es) =>
    exact .table (gap_newline _) (spells_prettyAt (level + 1) d h.2.1)
      (spellsEntries_pretty (level + 1) es h.2.2) (gap_newline _) h.1

/-- Items on lines of their own are spelt. -/
theorem spellsItems_pretty (level : Nat) (ds : List Document) (h : Document.AllFaithful ds) :
    SpellsItems ds (prettyItems level ds) := by
  match ds with
  | [] => exact .nil
  | d :: ds =>
    exact .cons (gap_newline _) (spells_prettyAt level d h.1) (spellsItems_pretty level ds h.2)

/-- And so are entries. -/
theorem spellsEntries_pretty (level : Nat) (es : List (String × Document))
    (h : Document.AllEntriesFaithful es) : SpellsEntries es (prettyEntries level es) := by
  match es with
  | [] => exact .nil
  | (k, d) :: es =>
    exact .cons (gap_newline _) (spells_prettyAt level d h.1) (spellsEntries_pretty level es h.2)

end

mutual

/-- **What is written on one line** spells the document. -/
theorem spells_compactText (d : Document) (h : d.Faithful) : Spells d (compactText d) := by
  match d with
  | .null => exact .scalar .null
  | .boolean b => exact .scalar (.boolean b)
  | .integer n => exact .scalar (.integer n)
  | .number x => exact .scalar (.number h)
  | .text s => exact .scalar (.text s)
  | .moment s => exact h.elim
  | .list [] => exact .noItems
  | .table [] => exact .noEntries
  | .list (d :: ds) =>
    have hspells := Spells.list gap_nil (spells_compactText d h.1) (spellsItems_compact ds h.2) gap_nil
    rw [List.nil_append, List.append_nil] at hspells
    exact hspells
  | .table ((k, d) :: es) =>
    have hspells := Spells.table gap_nil (spells_compactText d h.2.1)
      (spellsEntries_compact es h.2.2) gap_nil h.1
    rw [List.nil_append, List.append_nil] at hspells
    exact hspells

/-- Items on one line are spelt. -/
theorem spellsItems_compact (ds : List Document) (h : Document.AllFaithful ds) :
    SpellsItems ds (compactItems ds) := by
  match ds with
  | [] => exact .nil
  | d :: ds => exact .cons gap_space (spells_compactText d h.1) (spellsItems_compact ds h.2)

/-- And so are entries. -/
theorem spellsEntries_compact (es : List (String × Document))
    (h : Document.AllEntriesFaithful es) : SpellsEntries es (compactEntries es) := by
  match es with
  | [] => exact .nil
  | (k, d) :: es => exact .cons gap_space (spells_compactText d h.1) (spellsEntries_compact es h.2)

end

/-- **JSON over several lines is read back.** -/
@[simp] theorem read?_pretty {d : Document} (h : d.Faithful) : read? (pretty d) = some d := by
  have hread := (spells_prettyAt 0 d h).read?_eq gap_nil gap_nil
  rwa [List.nil_append, List.append_nil] at hread

/-- **JSON on one line is read back.** -/
@[simp] theorem read?_compact {d : Document} (h : d.Faithful) : read? (compact d) = some d := by
  have hread := (spells_compactText d h).read?_eq gap_nil gap_nil
  rwa [List.nil_append, List.append_nil] at hread

end Json

end Reckoner
