import Reckoner.Proofs.Postfix.Layout
import Reckoner.Proofs.Token.Insertion

/-! # Signs after operators

A compound operator is an operator and a sign in one token. A blank between its two characters makes two
tokens of it, and the signs after it are then read in other pairs. But every token of signs negates once
for each minus in it, so both readings negate equally often.

* **`Operator.compound?`** — the operator and the sign that a compound operator is made of.
* **`negationCount`** — how often signs negate.
* **`Regrouped`** — tokens that a sign comes before, and the tokens with that sign among them.
* **`Cursor.Yields.exists_regrouped`** — signs are read in other pairs when one more is before them.
* **`tokenize_insertBlank`** — the tokens of a text after a compound operator has been split. -/

namespace Reckoner

/-! ## Compound operators -/

/-- The operator that a **compound operator** begins with, and whether its sign negates. -/
def Operator.compound? : Operator → Option (Operator × Bool)
  | .plusMinus => some (.plus, true)
  | .minusPlus => some (.minus, false)
  | .timesMinus => some (.times, true)
  | .timesPlus => some (.times, false)
  | .divideMinus => some (.divide, true)
  | .dividePlus => some (.divide, false)
  | .percentMinus => some (.percent, true)
  | .percentPlus => some (.percent, false)
  | _ => none

/-- The character of a sign. -/
def signChar (negates : Bool) : Char := if negates then '-' else '+'

/-- The token of a sign by itself. -/
def signKind (negates : Bool) : TokenKind := if negates then .minus else .plus

/-- The token of a sign and the other sign after it. -/
def pairKind (negates : Bool) : TokenKind := if negates then .minusPlus else .plusMinus

/-- A sign is not the end. -/
@[simp] theorem signKind_ne_finish (negates : Bool) : signKind negates ≠ .finish := by
  cases negates <;> decide

/-- Nor is a pair of signs. -/
@[simp] theorem pairKind_ne_finish (negates : Bool) : pairKind negates ≠ .finish := by
  cases negates <;> decide

namespace Operator

variable {op base : Operator} {negates : Bool}

/-- A compound operator is written as its operator and its sign. -/
theorem symbol_of_compound? (h : op.compound? = some (base, negates)) :
    ∃ a, base.symbol.toList = [a] ∧ op.symbol.toList = [a, signChar negates] := by
  cases op <;> cases h <;> exact ⟨_, rfl, rfl⟩

/-- No compound operator is a plus. -/
theorem tokenKind_of_compound? (h : op.compound? = some (base, negates)) : op.tokenKind ≠ .plus := by
  cases op <;> cases h <;> decide

/-- A compound operator binds like its operator. -/
theorem precedence_of_compound? (h : op.compound? = some (base, negates)) :
    base.precedence = op.precedence := by
  cases op <;> cases h <;> rfl

/-- **The value of a compound operator** is that of its operator on the operand with its sign. -/
theorem apply_of_compound? [Numerics] [LawfulNumerics] (h : op.compound? = some (base, negates))
    (x y : Binary64) : op.apply x y = base.apply x (if negates then -y else y) := by
  have hpositive : Numerics.positive y = y := LawfulNumerics.positive_eq y
  cases op <;> cases h <;> simp [apply, hpositive]

end Operator

/-! ## Signs -/

/-- How often signs **negate**. -/
def negationCount (ts : List Token) : Nat := ts.countP fun t => t.kind ∈ TokenKind.negations

/-- The first token counts for itself. -/
theorem negationCount_cons (t : Token) (ts : List Token) :
    negationCount (t :: ts) = negationCount [t] + negationCount ts := by
  rw [negationCount, negationCount, negationCount, ← List.countP_append, List.singleton_append]

/-- A sign negates once or not at all. -/
@[simp] theorem negationCount_of_kind {t : Token} {negates : Bool} (h : t.kind = signKind negates) :
    negationCount [t] = negates.toNat := by
  cases negates <;> simp [negationCount, h, signKind, TokenKind.negations]

/-- A pair of signs negates once. -/
@[simp] theorem negationCount_of_pair {t : Token} {negates : Bool} (h : t.kind = pairKind negates) :
    negationCount [t] = 1 := by
  cases negates <;> simp [negationCount, h, pairKind, TokenKind.negations]

/-- A sign is no blank. -/
theorem visible_sign (negates : Bool) (r : List Char) :
    ∀ x ∈ (signChar negates :: r).head?, isBlank x = false := by
  intro x hx
  cases hx
  cases negates <;> decide

/-- A sign is read by itself where the other sign does not come after it. -/
@[simp] theorem scanToken_sign {negates : Bool} {r : List Char}
    (stop : ∀ x ∈ r.head?, x ≠ signChar !negates) :
    scanToken ([signChar negates] ++ r) = .ok (signKind negates, 1) := by
  have hlisted : ([signChar negates], signKind negates) ∈ lexemes := by cases negates <;> decide
  refine scanToken_of_find? hlisted (find?_lexemes_of_begins hlisted (List.prefix_append ..) (.inr ?_))
  -- the only operator of two characters that begins with a sign ends with the other one
  have hpairs : ∀ e ∈ lexemes, e.1.length = 2 → e.1.head? = some (signChar negates) →
      e.1 = [signChar negates, signChar !negates] := by cases negates <;> decide
  intro e he htwo hstarts
  obtain ⟨a, b, hab⟩ := List.length_eq_two.mp htwo
  have hfirst : a = signChar negates := by
    rw [hab] at hstarts
    exact (List.cons_prefix_cons.mp hstarts).1
  have hpair := hpairs e he htwo (by rw [hab, hfirst]; rfl)
  rw [hpair] at hstarts
  have hsecond := (List.cons_prefix_cons.mp hstarts).2
  cases r with
  | nil => cases List.prefix_nil.mp hsecond
  | cons x r =>
    obtain ⟨hx, -⟩ := List.cons_prefix_cons.mp hsecond
    exact stop x rfl hx.symm

/-- Otherwise the other sign is next. -/
theorem exists_of_not_stop {negates : Bool} {r : List Char}
    (h : ¬ ∀ x ∈ r.head?, x ≠ signChar negates) : ∃ r', r = signChar negates :: r' := by
  simp only [not_forall, not_not] at h
  obtain ⟨x, hx, rfl⟩ := h
  exact List.head?_eq_some_iff.mp hx

/-- A sign and the other one are read together. -/
@[simp] theorem scanToken_pair (negates : Bool) (r : List Char) :
    scanToken ([signChar negates, signChar !negates] ++ r) = .ok (pairKind negates, 2) := by
  have hlisted : ([signChar negates, signChar !negates], pairKind negates) ∈ lexemes := by
    cases negates <;> decide
  exact scanToken_of_find? hlisted (find?_lexemes_of_begins hlisted (List.prefix_append ..) (.inl rfl))

/-! ## Signs in other pairs -/

namespace Cursor

/-- What a cursor yields depends on what it has not read, but for the places. -/
theorem Yields.exists_of_rest {c c' d : Cursor} {ts : List Token} (h : c.Yields ts c')
    (same : d.rest = c.rest) : ∃ us d', d.Yields us d' ∧ us.map Token.word = ts.map Token.word := by
  -- the next tokens, and what is left after them
  have hnext : ∀ {c d c₁ : Cursor} {t : Token}, d.rest = c.rest → c.next = (.ok t, c₁) →
      ∃ u d₁, d.next = (.ok u, d₁) ∧ u.word = t.word ∧ d₁.rest = c₁.rest := by
    intro c d c₁ t same read
    have hskip : d.skipBlanks.rest = c.skipBlanks.rest := by
      rw [skipBlanks, skipBlanks, rest_advance, rest_advance, same]
    obtain ⟨width, hscan, hliteral, -, rfl⟩ := scanToken_of_next read
    rw [← hskip] at hscan
    refine ⟨_, _, next_of_scanToken hscan, ?_, ?_⟩
    · rw [Token.word, Token.word, hliteral, hskip]
    · rw [rest_advance, rest_advance, hskip]
  induction h generalizing d with
  | finish read last =>
    obtain ⟨u, d₁, read', hword, -⟩ := hnext same read
    have hkind := (Prod.mk.inj hword).1
    exact ⟨[u], d₁, .finish read' (hkind.trans last), congrArg ([·]) hword⟩
  | step read inner rest ih =>
    obtain ⟨u, d₁, read', hword, hrest⟩ := hnext same read
    have hkind := (Prod.mk.inj hword).1
    obtain ⟨us, d', hyields, hwords⟩ := ih hrest
    refine ⟨u :: us, d', .step read' (hkind ▸ inner) hyields, ?_⟩
    rw [List.map_cons, List.map_cons, hword, hwords]

end Cursor

/-- Tokens `ts` that a sign comes before, and tokens `us` with that sign among them, are **regrouped** when
they begin with signs and go on with the same words, and the sign accounts for what the signs negate. -/
inductive Regrouped (negates : Bool) : List Token → List Token → Prop
  | intro {qs zs ps ys : List Token} (signs : ∀ q ∈ qs, q.kind ∈ TokenKind.signs)
      (signs' : ∀ p ∈ ps, p.kind ∈ TokenKind.signs)
      (count : negationCount ps = negates.toNat + negationCount qs)
      (same : ys.map Token.word = zs.map Token.word) : Regrouped negates (qs ++ zs) (ps ++ ys)

namespace Regrouped

variable {negates : Bool} {ts us : List Token} {t u : Token}

/-- The sign is read by itself. -/
theorem single (kind : u.kind = signKind negates) (same : us.map Token.word = ts.map Token.word) :
    Regrouped negates ts (u :: us) := by
  have hsign : ∀ p ∈ [u], p.kind ∈ TokenKind.signs := by
    intro p hp
    rw [List.mem_singleton.mp hp, kind]
    cases negates <;> decide
  show Regrouped negates ([] ++ ts) ([u] ++ us)
  exact .intro (fun q hq => absurd hq List.not_mem_nil) hsign (negationCount_of_kind kind) same

/-- The sign is read with the next one, which was read by itself. -/
theorem pair (kind : t.kind = signKind !negates) (kind' : u.kind = pairKind negates)
    (same : us.map Token.word = ts.map Token.word) : Regrouped negates (t :: ts) (u :: us) := by
  have hsign : ∀ q ∈ [t], q.kind ∈ TokenKind.signs := by
    intro q hq
    rw [List.mem_singleton.mp hq, kind]
    cases negates <;> decide
  have hsign' : ∀ p ∈ [u], p.kind ∈ TokenKind.signs := by
    intro p hp
    rw [List.mem_singleton.mp hp, kind']
    cases negates <;> decide
  show Regrouped negates ([t] ++ ts) ([u] ++ us)
  refine .intro hsign hsign' ?_ same
  rw [negationCount_of_pair kind', negationCount_of_kind kind]
  cases negates <;> rfl

/-- Both signs are read in pairs, and the pairs are different ones. -/
theorem cons (kind : t.kind = pairKind !negates) (kind' : u.kind = pairKind negates)
    (h : Regrouped negates ts us) : Regrouped negates (t :: ts) (u :: us) := by
  cases h with
  | @intro qs zs ps ys signs signs' count same =>
    show Regrouped negates (t :: qs ++ zs) (u :: ps ++ ys)
    refine .intro (List.forall_mem_cons.mpr ⟨?_, signs⟩) (List.forall_mem_cons.mpr ⟨?_, signs'⟩) ?_
      same
    · rw [kind]
      cases negates <;> decide
    · rw [kind']
      cases negates <;> decide
    · rw [negationCount_cons, negationCount_cons t, negationCount_of_pair kind',
        negationCount_of_pair kind, count]
      omega

end Regrouped

namespace Cursor

/-- After its next token, a cursor yields the others. -/
theorem Yields.tail_of_next {c c' c₁ : Cursor} {ts : List Token} {t : Token} (h : c.Yields ts c')
    (read : c.next = (.ok t, c₁)) (inner : t.kind ≠ .finish) :
    ∃ us, ts = t :: us ∧ c₁.Yields us c' := by
  obtain ⟨u, us, c₂, rfl, read'⟩ := h.exists_next
  rw [read] at read'
  cases read'
  obtain ⟨c₂, read', hus⟩ := h.tail inner
  rw [read] at read'
  cases read'
  exact ⟨us, rfl, hus⟩

/-- **Signs are read in other pairs** when one more is before them. -/
theorem Yields.exists_regrouped {c c' d : Cursor} {ts : List Token} {negates : Bool}
    {blanks : List Char} (h : c.Yields ts c') (blank : ∀ x ∈ blanks, isBlank x = true)
    (apart : d.rest = blanks ++ signChar negates :: c.rest) :
    ∃ us d', d.Yields us d' ∧ Regrouped negates ts us := by
  have hnone : ∀ x ∈ ([] : List Char), isBlank x = true := fun x hx => absurd hx List.not_mem_nil
  by_cases stop : ∀ x ∈ c.rest.head?, x ≠ signChar !negates
  · -- the sign stands by itself
    have hsign : d.rest = blanks ++ ([signChar negates] ++ c.rest) := apart
    obtain ⟨d₁, hnext, hrest, -⟩ :=
      next_of_rest hsign blank (List.cons_ne_nil _ _) (visible_sign negates []) (scanToken_sign stop)
    obtain ⟨us, d', hyields, hwords⟩ := h.exists_of_rest hrest
    exact ⟨_, d', .step hnext (signKind_ne_finish negates) hyields, .single rfl hwords⟩
  · -- the sign is read with the one after it, which was the first one
    obtain ⟨r, hr⟩ := exists_of_not_stop stop
    have hpair : d.rest = blanks ++ ([signChar negates, signChar !negates] ++ r) := by
      rw [apart, hr]
      rfl
    obtain ⟨d₁, hnext, hrest, -⟩ := next_of_rest hpair blank (List.cons_ne_nil _ _)
      (visible_sign negates _) (scanToken_pair negates r)
    by_cases stop' : ∀ x ∈ r.head?, x ≠ signChar !!negates
    · -- what was read after that one is left
      have hsign : c.rest = [] ++ ([signChar !negates] ++ r) := hr
      obtain ⟨c₁, read, hrest', -⟩ :=
        next_of_rest hsign hnone (List.cons_ne_nil _ _) (visible_sign (!negates) []) (scanToken_sign stop')
      obtain ⟨ts, rfl, hts⟩ := h.tail_of_next read (signKind_ne_finish _)
      obtain ⟨us, d', hyields, hwords⟩ := hts.exists_of_rest (hrest.trans hrest'.symm)
      exact ⟨_, d', .step hnext (pairKind_ne_finish negates) hyields, .pair rfl rfl hwords⟩
    · -- that one was read with the one after it, which comes first now
      obtain ⟨r', rfl⟩ := exists_of_not_stop stop'
      have hpair' : c.rest = [] ++ ([signChar !negates, signChar !!negates] ++ r') := hr
      obtain ⟨c₁, read, hrest', -⟩ := next_of_rest hpair' hnone (List.cons_ne_nil _ _)
        (visible_sign (!negates) _) (scanToken_pair (!negates) r')
      obtain ⟨ts, rfl, hts⟩ := h.tail_of_next read (pairKind_ne_finish _)
      have hnext' : d₁.rest = [] ++ signChar negates :: c₁.rest := by
        rw [hrest, hrest', Bool.not_not]
        rfl
      have hshorter := length_rest_of_next read (pairKind_ne_finish _)
      obtain ⟨us, d', hyields, hregrouped⟩ := hts.exists_regrouped hnone hnext'
      exact ⟨_, d', .step hnext (pairKind_ne_finish negates) hyields, hregrouped.cons rfl rfl⟩
termination_by c.rest.length

end Cursor

/-! ## Splitting a compound operator -/

/-- An operator is written as its symbol. -/
theorem Cursor.literal_of_operator {c c' : Cursor} {t : Token} {op : Operator}
    (read : c.next = (.ok t, c')) (kind : t.kind.operator? = some op) :
    t.literal.toList = op.symbol.toList := by
  have hkind := (TokenKind.operator?_eq_some_iff.mp kind).symm
  have htexts : ∀ e ∈ lexemes, ∀ f ∈ lexemes, e.2 = f.2 → e.1 = f.1 := by decide
  have hlisted : (t.literal.toList, op.tokenKind) ∈ lexemes :=
    lexeme_of_next read hkind (by cases op <;> decide)
  exact htexts _ hlisted _ op.symbol_mem_lexemes rfl

/-- **The tokens of a text after a compound operator has been split**: those before it stay, the
operator is left in its place, and the sign is among the tokens after it. -/
theorem tokenize_insertBlank {s : String} {before after : List Token} {t : Token}
    {op base : Operator} {negates : Bool} (h : tokenize (some s) = .ok (before ++ t :: after))
    (kind : t.kind.operator? = some op) (compound : op.compound? = some (base, negates)) :
    ∃ k us, tokenize (some (insertBlank s (t.offset + 1))) = .ok (before ++ k :: us) ∧
      k.kind = base.tokenKind ∧ Regrouped negates after us := by
  obtain ⟨_, c', hs, -, hyields⟩ := tokenize_eq_ok_iff.mp h
  cases hs
  have inner : t.kind ≠ .finish := by
    rintro hfinish
    rw [hfinish] at kind
    cases kind
  obtain ⟨c₁, c₂, hpasses, read⟩ := hyields.exists_next_of_append
  obtain ⟨_, hafter, hyields₂⟩ := (hpasses.rest_yields hyields).tail_of_next read inner
  obtain ⟨-, rfl⟩ := List.cons.inj hafter
  obtain ⟨a, hbase, hop⟩ := Operator.symbol_of_compound? compound
  have hliteral := (Cursor.literal_of_operator read kind).trans hop
  obtain ⟨blanks, hrest, hblank, hvisible, hoffset, -⟩ := Cursor.exists_text_of_next read
  rw [hliteral] at hrest hvisible
  -- the character in front of the new blank is in the text
  have hinside : t.offset + 1 ≤ s.toList.length := by
    have hlength := c₁.length_rest
    have hsource : c₁.source = s := hpasses.source_eq
    rw [hrest, hsource] at hlength
    simp only [List.length_append, List.length_cons] at hlength
    omega
  have htake : (s.toList.take (t.offset + 1)).length = t.offset + 1 :=
    List.length_take_of_le hinside
  have hstart : (Cursor.atStart s).index = 0 := rfl
  obtain ⟨d₁, x, hpasses', hparted, hlength⟩ :=
    (Cursor.parted_atStart s (t.offset + 1)).passes hpasses (by omega)
  -- it is the operator that the compound one begins with
  obtain ⟨rfl, hsign⟩ : x = blanks ++ [a] ∧
      s.toList.drop (t.offset + 1) = signChar negates :: c₂.rest := by
    have hsplit : x ++ s.toList.drop (t.offset + 1) =
        (blanks ++ [a]) ++ (signChar negates :: c₂.rest) := by
      rw [← hparted.whole, hrest, List.append_assoc]
      rfl
    refine List.append_inj hsplit ?_
    rw [List.length_append, List.length_singleton]
    omega
  have hoperator : d₁.rest = blanks ++ ([a] ++ ' ' :: signChar negates :: c₂.rest) := by
    rw [hparted.apart, hsign, List.append_assoc]
  have hlisted : ([a], base.tokenKind) ∈ lexemes := hbase ▸ base.symbol_mem_lexemes
  have stop : ∀ y ∈ (' ' :: signChar negates :: c₂.rest).head?, joins y = false := by
    intro y hy
    cases hy
    decide
  obtain ⟨d₂, hnext, hrest₂, -⟩ := Cursor.next_of_rest hoperator hblank (List.cons_ne_nil a [])
    (fun y hy => hvisible y (List.mem_cons.mpr (.inl (Option.some.inj hy).symm)))
    (scanToken_lexeme hlisted (.inr stop))
  -- the sign comes after the new blank
  have happart : d₂.rest = [' '] ++ signChar negates :: c₂.rest := hrest₂
  have hspace : ∀ y ∈ [' '], isBlank y = true := by
    intro y hy
    rw [List.mem_singleton.mp hy]
    decide
  obtain ⟨us, d', hyields', hregrouped⟩ := hyields₂.exists_regrouped hspace happart
  have hinner : base.tokenKind ≠ .finish := by cases base <;> decide
  have hne : insertBlank s (t.offset + 1) ≠ "" := by
    rw [insertBlank, ne_eq, String.ofList_eq_empty_iff]
    exact List.append_ne_nil_of_right_ne_nil _ (List.cons_ne_nil _ _)
  exact ⟨_, us, tokenize_eq_ok_iff.mpr ⟨_, d', rfl, hne,
    hpasses'.append_yields (.step hnext hinner hyields')⟩, rfl, hregrouped⟩

end Reckoner
