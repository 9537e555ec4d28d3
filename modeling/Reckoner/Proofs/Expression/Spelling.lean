import Reckoner.Proofs.Binary64.Text
import Reckoner.Proofs.Expression.Precedence
import Reckoner.Proofs.Postfix.Height
import Reckoner.Proofs.Symbol.Names
import Reckoner.Proofs.Token.Spelling

/-! # Spelling trees

A text for every tree: all operations stand in brackets, so that no precedence and no neighbouring
character can change what the text means.

* **`Instruction.unplaced`** — an instruction without its place in a text.
* **`Instruction.Spellable`** — the instructions that a text can have: numbers without a sign, and
  calls with as many arguments as their functions take.
* **`Tree.spelling`** — the text of a tree.
* **`Spells`** — a text is read for given instructions, whatever follows it.
* **`Tree.spells_spelling`** — the text of a tree is read for its postorder. -/

namespace Reckoner

/-! ## Instructions without places -/

/-- An instruction **without its place**. -/
def Instruction.unplaced : Instruction → Instruction
  | .number value _ => .number value ⟨0, 0⟩
  | .negate _ => .negate 0
  | .operation op _ => .operation op 0
  | .call f arity _ => .call f arity ⟨0, 0⟩
  | .factorial _ => .factorial 0
  | .unknown shown => .unknown shown

/-- Whether a text can have an instruction: it has no NaN and no number with a sign of its own. -/
def Instruction.Spellable : Instruction → Prop
  | .number value _ => value.isNaN = false ∧ value.isNegative = false
  | i => i.Resolved

/-! ## Texts -/

/-- The text of a number; infinity is spelled as a number that is too large. -/
def Binary64.spelling (x : Binary64) : List Char :=
  if x.isInfinite then "1e999".toList else x.shortest.toList

/-- A text in brackets. -/
def bracketed (text : List Char) : List Char := '(' :: (text ++ [')'])

namespace Tree

mutual

/-- The **text of a tree**: numbers, names before their arguments, and operations in brackets. -/
def spelling : Tree → List Char
  | .number value _ => value.spelling
  | .negate _ t => bracketed ('-' :: t.spelling)
  | .operation op _ l r => bracketed (l.spelling ++ (op.symbol.toList ++ r.spelling))
  | .factorial _ t => bracketed (t.spelling ++ ['!'])
  | .call f _ ts => f.name.toList ++ bracketed (spellings ts)

/-- The texts of several trees, with commas between them. -/
def spellings : List Tree → List Char
  | [] => []
  | [t] => t.spelling
  | t :: ts => t.spelling ++ ',' :: spellings ts

end

end Tree

/-- **The text of a number is read back.** -/
theorem Binary64.spelling_reads {x : Binary64} (hnan : x.isNaN = false)
    (hsign : x.isNegative = false) : Numeral x.spelling ∧ ofNumeral x.spelling = x := by
  cases x with
  | nan s => cases hnan
  | number s r hr =>
    obtain rfl : s = false := hsign
    by_cases htop : r = topRank
    · subst htop
      have hinfinite : (number false topRank hr).isInfinite = true := beq_self_eq_true topRank
      have hmantissa : Mantissa ['1'] := .whole (by simp [Digits]) (by simp)
      have hexponent : ExponentPart ('e' :: ([] ++ ['9', '9', '9'])) :=
        .present (.inl rfl) (by simp) (by simp [Digits]) (by simp)
      have hlarge : ofNumeral "1e999".toList = infinity false := by decide +kernel
      rw [spelling, hinfinite, if_pos rfl]
      exact ⟨.intro hmantissa hexponent, hlarge⟩
    · have hinfinite : (number false r hr).isInfinite = false := beq_eq_false_iff_ne.mpr htop
      have hfinite : (number false r hr).isFinite = true :=
        decide_eq_true (Nat.lt_of_le_of_ne hr htop)
      rw [spelling, hinfinite, if_neg Bool.false_ne_true]
      exact numeral_write .roundTrip hfinite rfl

/-! ## How texts begin -/

/-- A text **begins alone** when no operator before it goes on with it. -/
def BeginsAlone (text : List Char) : Prop := ∃ c r, text = c :: r ∧ joins c = false

/-- A text begins alone when its first character joins nothing. -/
theorem beginsAlone_cons {c : Char} (h : joins c = false) (text : List Char) :
    BeginsAlone (c :: text) :=
  ⟨c, text, rfl, h⟩

/-- And it does so with more after it. -/
theorem BeginsAlone.joins_head {text : List Char} (h : BeginsAlone text) (rest : List Char) :
    ∀ x ∈ (text ++ rest).head?, joins x = false := by
  obtain ⟨c, r, rfl, hc⟩ := h
  intro x hx
  cases hx
  exact hc

/-- Such a text is not empty. -/
theorem BeginsAlone.ne_nil {text : List Char} (h : BeginsAlone text) : text ≠ [] := by
  obtain ⟨c, r, rfl, -⟩ := h
  exact List.cons_ne_nil c r

/-- A numeral begins alone. -/
theorem Numeral.beginsAlone {cs : List Char} (h : Numeral cs) : BeginsAlone cs := by
  obtain ⟨c, r, rfl, hc⟩ := h.head
  rcases hc with hdigit | rfl
  · exact beginsAlone_cons (joins_of_isDigit hdigit) r
  · exact beginsAlone_cons rfl r

/-! ## Reading texts -/

/-- An argument may stand before others as well as after them. -/
theorem Reads.cons_argument {ls rs : List Token} {t : Token} {tree : Tree} {trees : List Tree}
    (left : Reads (.level 0) ls [tree]) (kind : t.kind = .comma) (right : Reads .arguments rs trees) :
    Reads .arguments (ls ++ t :: rs) (tree :: trees) := by
  generalize hs : Stratum.arguments = s at right
  -- the induction is on the other arguments, the last of which stays the last one
  induction right with
  | argument inner => exact .comma (.argument left) kind inner
  | @comma ls' rs' t' trees' tree' left' kind' right' ih =>
    have h := Reads.comma (ih hs) kind' right'
    rwa [List.append_assoc, List.cons_append] at h
  | _ => cases hs

/-- A text **spells** instructions when it is read, at whatever place, for a phrase that means so many
trees with these instructions, provided that no name could go on after it. -/
def Spells (s : Stratum) (count : Nat) (text : List Char) (is : List Instruction) : Prop :=
  ∀ (c : Cursor) (rest : List Char), c.rest = text ++ rest →
    (∀ x ∈ rest.head?, isNameChar x = false) →
    ∃ ts trees c', c.Passes ts c' ∧ c'.rest = rest ∧ Reads s ts trees ∧ trees.length = count ∧
      (Tree.postorders trees).map Instruction.unplaced = is.map Instruction.unplaced

namespace Spells

variable {text left right : List Char} {is js : List Instruction} {s : Stratum} {count : Nat}

/-- A phrase with one tree. -/
theorem read_tree (h : Spells s 1 text is) {c : Cursor} {rest : List Char}
    (here : c.rest = text ++ rest) (stop : ∀ x ∈ rest.head?, isNameChar x = false) :
    ∃ ts tree c', c.Passes ts c' ∧ c'.rest = rest ∧ Reads s ts [tree] ∧
      tree.postorder.map Instruction.unplaced = is.map Instruction.unplaced := by
  obtain ⟨ts, trees, c', hpasses, hrest, hreads, hcount, his⟩ := h c rest here stop
  obtain ⟨tree, rfl⟩ := List.length_eq_one_iff.mp hcount
  rw [Tree.postorders_singleton] at his
  exact ⟨ts, tree, c', hpasses, hrest, hreads, his⟩

/-- A number without a sign is spelt by its own text. -/
theorem number {x : Binary64} (hnan : x.isNaN = false) (hsign : x.isNegative = false) (span : Span) :
    Spells .primary 1 x.spelling [.number x span] := by
  intro c rest here stop
  obtain ⟨hnumeral, hvalue⟩ := Binary64.spelling_reads hnan hsign
  obtain ⟨t, c', hpasses, hrest, hkind, hliteral⟩ := Cursor.exists_next_of_numeral hnumeral here stop
  refine ⟨[t], _, c', hpasses, hrest, .number hkind, rfl, ?_⟩
  rw [hliteral, hvalue]
  rfl

/-- Brackets, commas and marks of the factorial stop a name before them. -/
theorem stop_cons {x : Char} (h : isNameChar x = false) (rest : List Char) :
    ∀ y ∈ (x :: rest).head?, isNameChar y = false := by
  intro y hy
  cases hy
  exact h

/-- An expression in brackets is a primary. -/
theorem group (h : Spells (.level 0) 1 text is) : Spells .primary 1 (bracketed text) is := by
  intro c rest here stop
  rw [bracketed, List.cons_append, List.append_assoc] at here
  obtain ⟨opening, c₁, hopen, hrest₁, hopens⟩ := Cursor.exists_next_of_open here
  obtain ⟨ts, tree, c₂, hinner, hrest₂, hreads, his⟩ :=
    h.read_tree hrest₁ (stop_cons (by decide) rest)
  obtain ⟨closing, c₃, hclose, hrest₃, hcloses⟩ := Cursor.exists_next_of_close hrest₂
  refine ⟨_, [tree], c₃, hopen.append (hinner.append hclose), hrest₃,
    .group hopens hreads hcloses, rfl, ?_⟩
  rw [Tree.postorders_singleton, his]

/-- A call is a primary. -/
theorem call {f : Function} (h : Spells .arguments count text is)
    (arity : ∀ n, f.arity? = some n → count = n) (span : Span) :
    Spells .primary 1 (f.name.toList ++ bracketed text) (is ++ [.call f count span]) := by
  intro c rest here stop
  rw [List.append_assoc, bracketed, List.cons_append, List.append_assoc] at here
  obtain ⟨name, c₁, hname, hrest₁, hkind, hliteral⟩ := Cursor.exists_next_of_name here
  obtain ⟨opening, c₂, hopen, hrest₂, hopens⟩ := Cursor.exists_next_of_open hrest₁
  obtain ⟨ts, trees, c₃, hinner, hrest₃, hreads, rfl, his⟩ :=
    h c₂ _ hrest₂ (stop_cons (by decide) rest)
  obtain ⟨closing, c₄, hclose, hrest₄, hcloses⟩ := Cursor.exists_next_of_close hrest₃
  have hknown : function? name.literal = some f := by rw [hliteral, function?_name]
  refine ⟨_, _, c₄, hname.append (hopen.append (hinner.append hclose)), hrest₄,
    .call hkind hknown hopens hreads hcloses arity, rfl, ?_⟩
  rw [Tree.postorders_singleton, Tree.postorder, List.map_append, List.map_append, his]
  rfl

/-- A sign and a primary are an expression. -/
theorem negation (h : Spells .primary 1 text is) (alone : BeginsAlone text) (offset : Int) :
    Spells (.level 0) 1 ('-' :: text) (is ++ [.negate offset]) := by
  intro c rest here stop
  have hsign : (['-'], TokenKind.minus) ∈ lexemes := by decide
  rw [List.cons_append, ← List.singleton_append] at here
  obtain ⟨sign, c₁, hpasses, hrest₁, hkind⟩ :=
    Cursor.exists_next_of_lexeme hsign here (.inr (alone.joins_head rest))
  obtain ⟨ts, tree, c₂, hinner, hrest₂, hreads, his⟩ := h.read_tree hrest₁ stop
  have hnegates : sign.kind ∈ TokenKind.negations := by rw [hkind]; decide
  refine ⟨_, _, c₂, hpasses.append hinner, hrest₂,
    .level_of_le (Nat.zero_le 4) (.operand (.negation hnegates (.factor (.primary hreads)))), rfl, ?_⟩
  rw [Tree.postorders_singleton, Tree.postorder, List.map_append, List.map_append, his]
  rfl

/-- A primary and a mark of the factorial are an expression. -/
theorem factorial (h : Spells .primary 1 text is) (offset : Int) :
    Spells (.level 0) 1 (text ++ ['!']) (is ++ [.factorial offset]) := by
  intro c rest here stop
  have hmark : (['!'], TokenKind.factorial) ∈ lexemes := by decide
  rw [List.append_assoc] at here
  obtain ⟨ts, tree, c₁, hinner, hrest₁, hreads, his⟩ :=
    h.read_tree here (stop_cons (by decide) rest)
  obtain ⟨mark, c₂, hpasses, hrest₂, hkind⟩ :=
    Cursor.exists_next_of_lexeme hmark hrest₁ (.inl (by decide))
  refine ⟨_, _, c₂, hinner.append hpasses, hrest₂, .level_of_le (Nat.zero_le 4)
    (.operand (.factor (.factorial (.primary hreads) hkind))), rfl, ?_⟩
  rw [Tree.postorders_singleton, Tree.postorder, List.map_append, List.map_append, his]
  rfl

/-- Two primaries and an operator between them are an expression. -/
theorem operation (hl : Spells .primary 1 left is) (op : Operator) (alone : BeginsAlone right)
    (hr : Spells .primary 1 right js) (offset : Int) :
    Spells (.level 0) 1 (left ++ (op.symbol.toList ++ right)) (is ++ (js ++ [.operation op offset])) := by
  intro c rest here stop
  rw [List.append_assoc, List.append_assoc] at here
  obtain ⟨ls, l, c₁, hleft, hrest₁, hreadsl, his⟩ := hl.read_tree here (op.stop_symbol _)
  obtain ⟨t, c₂, hpasses, hrest₂, hkind⟩ :=
    Cursor.exists_next_of_lexeme op.symbol_mem_lexemes hrest₁ (.inr (alone.joins_head rest))
  obtain ⟨rs, r, c₃, hright, hrest₃, hreadsr, hjs⟩ := hr.read_tree hrest₂ stop
  have hoperator : t.kind.operator? = some op := by rw [hkind, Operator.operator?_tokenKind]
  have hlevel := op.precedence_le
  -- primaries are operands of every operator
  have hoperand : ∀ {n us u}, n ≤ 4 → Reads .primary us [u] → Reads (.level n) us [u] :=
    fun hn h => .level_of_le hn (.operand (.factor (.primary h)))
  refine ⟨_, _, c₃, hleft.append (hpasses.append hright), hrest₃, .level_of_le (Nat.zero_le _)
    (.operation (hoperand (by omega) hreadsl) hoperator (Operator.mem_level_iff.mpr rfl)
      (hoperand (by omega) hreadsr)), rfl, ?_⟩
  rw [Tree.postorders_singleton, Tree.postorder, List.map_append, List.map_append, List.map_append,
    List.map_append, his, hjs]
  rfl

/-- One argument. -/
theorem argument (h : Spells .primary 1 text is) : Spells .arguments 1 text is := by
  intro c rest here stop
  obtain ⟨ts, tree, c', hpasses, hrest, hreads, his⟩ := h.read_tree here stop
  refine ⟨ts, [tree], c', hpasses, hrest, .argument (.level_of_le (Nat.zero_le 4)
    (.operand (.factor (.primary hreads)))), rfl, ?_⟩
  rw [Tree.postorders_singleton, his]

/-- An argument before others. -/
theorem comma (hl : Spells .primary 1 left is) (hr : Spells .arguments count right js) :
    Spells .arguments (count + 1) (left ++ ',' :: right) (is ++ js) := by
  intro c rest here stop
  have hlexeme : ([','], TokenKind.comma) ∈ lexemes := by decide
  rw [List.append_assoc, List.cons_append] at here
  obtain ⟨ts, tree, c₁, hfirst, hrest₁, hreads, his⟩ :=
    hl.read_tree here (stop_cons (by decide) _)
  rw [← List.singleton_append] at hrest₁
  obtain ⟨t, c₂, hpasses, hrest₂, hkind⟩ :=
    Cursor.exists_next_of_lexeme hlexeme hrest₁ (.inl (by decide))
  obtain ⟨us, trees, c₃, hothers, hrest₃, hreads', rfl, hjs⟩ := hr c₂ rest hrest₂ stop
  refine ⟨_, _, c₃, hfirst.append (hpasses.append hothers), hrest₃,
    .cons_argument (.level_of_le (Nat.zero_le 4) (.operand (.factor (.primary hreads)))) hkind
      hreads', rfl, ?_⟩
  rw [Tree.postorders, List.map_append, List.map_append, his, hjs]

end Spells

/-! ## The texts of trees -/

namespace Tree

/-- No operator goes on with the text of a tree. -/
theorem beginsAlone_spelling {t : Tree} (h : ∀ i ∈ t.postorder, i.Spellable) :
    BeginsAlone t.spelling := by
  cases t with
  | number value span =>
    obtain ⟨hnan, hsign⟩ := h _ (List.mem_singleton_self _)
    exact (Binary64.spelling_reads hnan hsign).1.beginsAlone
  | call f span ts =>
    obtain ⟨first, name, hname, hstart, -⟩ := f.exists_name
    rw [spelling, hname]
    exact beginsAlone_cons (joins_of_isNameStart hstart) _
  | negate offset t => exact beginsAlone_cons rfl _
  | operation op offset l r => exact beginsAlone_cons rfl _
  | factorial offset t => exact beginsAlone_cons rfl _

mutual

/-- **The text of a tree is read for its postorder.** -/
theorem spells_spelling :
    (t : Tree) → (∀ i ∈ t.postorder, i.Spellable) → Spells .primary 1 t.spelling t.postorder
  | .number value span, h => by
    obtain ⟨hnan, hsign⟩ := h _ (List.mem_singleton_self _)
    exact .number hnan hsign span
  | .negate offset t, h => by
    rw [postorder, List.forall_mem_append] at h
    exact ((t.spells_spelling h.1).negation (beginsAlone_spelling h.1) offset).group
  | .operation op offset l r, h => by
    rw [postorder, List.forall_mem_append, List.forall_mem_append] at h
    obtain ⟨hl, hr, -⟩ := h
    exact ((l.spells_spelling hl).operation op (beginsAlone_spelling hr) (r.spells_spelling hr)
      offset).group
  | .factorial offset t, h => by
    rw [postorder, List.forall_mem_append] at h
    exact ((t.spells_spelling h.1).factorial offset).group
  | .call f span ts, h => by
    rw [postorder, List.forall_mem_append] at h
    -- a call has one argument at least
    obtain ⟨hcount, harity⟩ := h.2 _ (List.mem_singleton_self _)
    have hne : ts ≠ [] := List.ne_nil_of_length_pos hcount
    exact (spells_spellings ts hne h.1).call harity span

/-- The texts of several trees, of one at least, are read for their postorders. -/
theorem spells_spellings :
    (ts : List Tree) → ts ≠ [] → (∀ i ∈ postorders ts, i.Spellable) →
      Spells .arguments ts.length (spellings ts) (postorders ts)
  | [], hne, _ => absurd rfl hne
  | [t], _, h => by
    rw [postorders_singleton] at h ⊢
    exact (t.spells_spelling h).argument
  | t :: u :: us, _, h => by
    rw [postorders, List.forall_mem_append] at h
    exact (t.spells_spelling h.1).comma
      (spells_spellings (u :: us) (List.cons_ne_nil u us) h.2)

end

end Tree

end Reckoner
