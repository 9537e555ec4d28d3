import Reckoner.Postfix.Assembler

/-! # The grammar of expressions

Which token lists are expressions, said without any stack, and how deeply their brackets nest.

* **`TokenKind.signs`** — the signs that may stand before an operand.
* **`Phrase`, `Derives`** — the five kinds of phrases and the token lists of each kind. Precedence
  plays no part: an expression is operands with operators between them.
* **`Derives.operand_factorial`** — a mark of the factorial may follow any operand.
* **`openBrackets`, `NestsWithin`** — how many brackets a token list leaves open, and that none of
  its brackets opens beyond a limit (`nestsWithin_iff`). -/

namespace Reckoner

/-! ## Signs -/

/-- The signs that negate the operand after them. -/
def TokenKind.negations : List TokenKind := [.minus, .plusMinus, .minusPlus]

/-- The signs that may stand before an operand. -/
def TokenKind.signs : List TokenKind := .plus :: negations

/-- The signs that negate. -/
@[simp] theorem TokenKind.sign?_eq_true_iff {kind : TokenKind} :
    kind.sign? = some true ↔ kind ∈ negations := by
  cases kind <;> decide

/-- The sign that does not. -/
@[simp] theorem TokenKind.sign?_eq_false_iff {kind : TokenKind} :
    kind.sign? = some false ↔ kind = .plus := by
  cases kind <;> decide

/-- These are all signs. -/
theorem TokenKind.mem_signs_iff {kind : TokenKind} :
    kind ∈ signs ↔ ∃ negates, kind.sign? = some negates := by
  rw [signs, List.mem_cons, ← sign?_eq_false_iff, ← sign?_eq_true_iff]
  constructor
  · rintro (h | h)
    · exact ⟨false, h⟩
    · exact ⟨true, h⟩
  · rintro ⟨negates, h⟩
    cases negates with
    | false => exact .inl h
    | true => exact .inr h

/-! ## Phrases -/

/-- The kinds of phrases. -/
inductive Phrase where
  /-- A number, a constant, an expression in brackets, or a call. -/
  | primary
  /-- A primary and marks of the factorial. -/
  | factor
  /-- Signs and a factor. -/
  | operand
  /-- Operands with operators between them. -/
  | expression
  /-- So many expressions with commas between them. -/
  | arguments (count : Nat)
  deriving DecidableEq

/-- The **token lists of a phrase**. A name must stand for something, and a call must have as many
arguments as its function takes, if that number is fixed. -/
inductive Derives : Phrase → List Token → Prop
  | number {t : Token} (kind : t.kind = .number) : Derives .primary [t]
  | constant {t : Token} {value : Binary64} (kind : t.kind = .variable)
      (known : constant? t.literal = some value) : Derives .primary [t]
  | group {opening closing : Token} {ts : List Token} (opens : opening.kind = .openParen)
      (inner : Derives .expression ts) (closes : closing.kind = .closeParen) :
      Derives .primary (opening :: (ts ++ [closing]))
  | call {name opening closing : Token} {f : Function} {count : Nat} {ts : List Token}
      (kind : name.kind = .function) (known : function? name.literal = some f)
      (opens : opening.kind = .openParen) (inner : Derives (.arguments count) ts)
      (closes : closing.kind = .closeParen) (arity : ∀ n, f.arity? = some n → count = n) :
      Derives .primary (name :: opening :: (ts ++ [closing]))
  | primary {ts : List Token} (inner : Derives .primary ts) : Derives .factor ts
  | factorial {ts : List Token} {mark : Token} (inner : Derives .factor ts)
      (kind : mark.kind = .factorial) : Derives .factor (ts ++ [mark])
  | factor {ts : List Token} (inner : Derives .factor ts) : Derives .operand ts
  | sign {s : Token} {ts : List Token} (kind : s.kind ∈ TokenKind.signs)
      (inner : Derives .operand ts) : Derives .operand (s :: ts)
  | operand {ts : List Token} (inner : Derives .operand ts) : Derives .expression ts
  | operation {ls rs : List Token} {t : Token} {op : Operator} (left : Derives .expression ls)
      (kind : t.kind.operator? = some op) (right : Derives .operand rs) :
      Derives .expression (ls ++ t :: rs)
  | argument {ts : List Token} (inner : Derives .expression ts) : Derives (.arguments 1) ts
  | comma {ls rs : List Token} {t : Token} {count : Nat} (left : Derives (.arguments count) ls)
      (kind : t.kind = .comma) (right : Derives .expression rs) :
      Derives (.arguments (count + 1)) (ls ++ t :: rs)

/-- A mark of the factorial after an operand belongs to its factor. -/
theorem Derives.operand_factorial {ts : List Token} {mark : Token} (h : Derives .operand ts)
    (kind : mark.kind = .factorial) : Derives .operand (ts ++ [mark]) := by
  generalize hp : Phrase.operand = p at h
  induction h with
  | factor inner _ => exact .factor (.factorial inner kind)
  -- the mark goes to the operand behind the sign
  | sign hs _ ih => exact .sign hs (ih hp)
  | _ => cases hp

/-- There is one argument at least. -/
theorem Derives.arguments_pos {count : Nat} {ts : List Token} (h : Derives (.arguments count) ts) :
    0 < count := by
  cases h with
  | argument inner => exact Nat.one_pos
  | comma left kind right => exact Nat.succ_pos _

/-- No token of a phrase is illegal. -/
theorem Derives.legal {p : Phrase} {ts : List Token} (h : Derives p ts) :
    ∀ t ∈ ts, t.kind ≠ .illegal := by
  induction h with
  | number kind => simp [kind]
  | constant kind _ => simp [kind]
  | group opens _ closes ih => simpa [opens, closes, or_imp, forall_and] using ih
  | call kind _ opens _ closes _ ih => simpa [kind, opens, closes, or_imp, forall_and] using ih
  | primary _ ih => exact ih
  | factorial _ kind ih => simpa [kind, or_imp, forall_and] using ih
  | factor _ ih => exact ih
  | @sign s ts kind _ ih =>
    have hs : s.kind ≠ .illegal := by
      intro hs
      rw [hs] at kind
      exact absurd kind (by decide)
    simpa [hs] using ih
  | operand _ ih => exact ih
  | @operation ls rs t op _ kind _ ihl ihr =>
    have ht : t.kind ≠ .illegal := by
      intro ht
      rw [ht] at kind
      cases kind
    simpa [ht, or_imp, forall_and] using ⟨ihl, ihr⟩
  | argument _ ih => exact ih
  | comma _ kind _ ihl ihr => simpa [kind, or_imp, forall_and] using ⟨ihl, ihr⟩

/-! ## Open brackets -/

/-- How many more brackets open than close in a token list. -/
def openBrackets (ts : List Token) : Int :=
  ts.countP (fun t => t.kind = .openParen) - ts.countP (fun t => t.kind = .closeParen)

/-- No tokens open no bracket. -/
@[simp] theorem openBrackets_nil : openBrackets [] = 0 := rfl

/-- Brackets are counted in each part. -/
@[simp] theorem openBrackets_append (ts us : List Token) :
    openBrackets (ts ++ us) = openBrackets ts + openBrackets us := by
  rw [openBrackets, openBrackets, openBrackets, List.countP_append, List.countP_append]
  omega

/-- The first token counts for itself. -/
theorem openBrackets_cons (t : Token) (ts : List Token) :
    openBrackets (t :: ts) = openBrackets [t] + openBrackets ts :=
  openBrackets_append [t] ts

/-- An opening bracket counts one. -/
@[simp] theorem openBrackets_of_open {t : Token} (h : t.kind = .openParen) : openBrackets [t] = 1 := by
  simp [openBrackets, h]

/-- A closing bracket takes one back. -/
@[simp] theorem openBrackets_of_close {t : Token} (h : t.kind = .closeParen) : openBrackets [t] = -1 := by
  simp [openBrackets, h]

/-- All other tokens count nothing. -/
theorem openBrackets_of_kind {t : Token} {k : TokenKind} (h : t.kind = k) (ho : k ≠ .openParen)
    (hc : k ≠ .closeParen) : openBrackets [t] = 0 := by
  simp [openBrackets, h, ho, hc]

/-- Operators among them. -/
@[simp] theorem openBrackets_of_operator {t : Token} {op : Operator} (h : t.kind.operator? = some op) :
    openBrackets [t] = 0 := by
  have hk := TokenKind.operator?_eq_some_iff.mp h
  apply openBrackets_of_kind hk.symm <;> cases op <;> decide

/-- And signs. -/
@[simp] theorem openBrackets_of_sign {t : Token} {negates : Bool} (h : t.kind.sign? = some negates) :
    openBrackets [t] = 0 := by
  apply openBrackets_of_kind rfl <;> intro hk <;> rw [hk] at h <;> cases h

/-- The brackets of a phrase are balanced. -/
theorem Derives.openBrackets_eq_zero {p : Phrase} {ts : List Token} (h : Derives p ts) :
    openBrackets ts = 0 := by
  induction h with
  | number kind => exact openBrackets_of_kind kind (by decide) (by decide)
  | constant kind _ => exact openBrackets_of_kind kind (by decide) (by decide)
  | group opens _ closes ih =>
    rw [openBrackets_cons, openBrackets_append, openBrackets_of_open opens, ih,
      openBrackets_of_close closes]
    rfl
  | @call name opening _ _ _ _ kind _ opens _ closes _ ih =>
    rw [openBrackets_cons name, openBrackets_cons opening, openBrackets_append,
      openBrackets_of_kind kind (by decide) (by decide), openBrackets_of_open opens, ih,
      openBrackets_of_close closes]
    rfl
  | primary _ ih => exact ih
  | factorial _ kind ih =>
    rw [openBrackets_append, ih, openBrackets_of_kind kind (by decide) (by decide)]
    rfl
  | factor _ ih => exact ih
  | sign kind _ ih =>
    obtain ⟨negates, hsign⟩ := TokenKind.mem_signs_iff.mp kind
    rw [openBrackets_cons, openBrackets_of_sign hsign, ih]
    rfl
  | operand _ ih => exact ih
  | operation _ kind _ ihl ihr =>
    rw [openBrackets_append, openBrackets_cons, openBrackets_of_operator kind, ihl, ihr]
    rfl
  | argument _ ih => exact ih
  | comma _ kind _ ihl ihr =>
    rw [openBrackets_append, openBrackets_cons,
      openBrackets_of_kind kind (by decide) (by decide), ihl, ihr]
    rfl

/-- The brackets of a token list **nest within** a limit: none of them opens where as many are open
already. -/
def NestsWithin (limit : Int) (ts : List Token) : Prop :=
  ∀ before t, before ++ [t] <+: ts → t.kind = .openParen → openBrackets (before ++ [t]) ≤ limit

/-- No tokens nest within any limit. -/
@[simp] theorem nestsWithin_nil (limit : Int) : NestsWithin limit [] := by
  intro before t hb
  have hnil := List.prefix_nil.mp hb
  exact absurd hnil (List.append_ne_nil_of_right_ne_nil before (List.cons_ne_nil t []))

/-- The first token leaves a limit for the others. -/
theorem nestsWithin_cons {limit : Int} {t : Token} {ts : List Token} :
    NestsWithin limit (t :: ts) ↔
      (t.kind = .openParen → 1 ≤ limit) ∧ NestsWithin (limit - openBrackets [t]) ts := by
  constructor
  · intro h
    constructor
    · intro ht
      have hfirst := h [] t (List.cons_prefix_cons.mpr ⟨rfl, List.nil_prefix⟩) ht
      rwa [List.nil_append, openBrackets_of_open ht] at hfirst
    · intro before u hb hu
      have hlater := h (t :: before) u (List.cons_prefix_cons.mpr ⟨rfl, hb⟩) hu
      rw [List.cons_append, openBrackets_cons] at hlater
      omega
  · rintro ⟨hfirst, hlater⟩ before u hb hu
    cases before with
    | nil =>
      obtain ⟨rfl, -⟩ := List.cons_prefix_cons.mp hb
      rw [List.nil_append, openBrackets_of_open hu]
      exact hfirst hu
    | cons b before =>
      rw [List.cons_append] at hb
      obtain ⟨rfl, hbefore⟩ := List.cons_prefix_cons.mp hb
      have h := hlater before u hbefore hu
      rw [List.cons_append, openBrackets_cons]
      omega

/-- The first part leaves a limit for the second. -/
@[simp] theorem nestsWithin_append {limit : Int} {ts us : List Token} :
    NestsWithin limit (ts ++ us) ↔
      NestsWithin limit ts ∧ NestsWithin (limit - openBrackets ts) us := by
  induction ts generalizing limit with
  | nil =>
    rw [List.nil_append, openBrackets_nil, Int.sub_zero]
    exact ⟨fun h => ⟨nestsWithin_nil limit, h⟩, fun h => h.2⟩
  | cons t ts ih =>
    rw [List.cons_append, nestsWithin_cons, nestsWithin_cons, ih, openBrackets_cons t ts, and_assoc,
      Int.sub_sub]

/-- When the limit is not negative, it bounds how many brackets are open at any place. -/
theorem nestsWithin_iff {limit : Int} (hlimit : 0 ≤ limit) {ts : List Token} :
    NestsWithin limit ts ↔ ∀ before, before <+: ts → openBrackets before ≤ limit := by
  constructor
  · intro h before hb
    induction ts generalizing limit before with
    | nil =>
      rw [List.prefix_nil.mp hb]
      exact hlimit
    | cons t ts ih =>
      -- after the first token the limit is what that token leaves of it
      rcases List.prefix_cons_iff.mp hb with rfl | ⟨before, rfl, hbefore⟩
      · exact hlimit
      · rw [nestsWithin_cons] at h
        -- the limit for the other tokens is not negative either
        have hone : openBrackets [t] ≤ limit := by
          by_cases ht : t.kind = .openParen
          · rw [openBrackets_of_open ht]
            exact h.1 ht
          · have hnone : openBrackets [t] ≤ 0 := by
              by_cases hc : t.kind = .closeParen
              · rw [openBrackets_of_close hc]
                decide
              · exact Int.le_of_eq (openBrackets_of_kind rfl ht hc)
            exact Int.le_trans hnone hlimit
        have hrest := ih (by omega) h.2 before hbefore
        rw [openBrackets_cons]
        omega
  · intro h before t hb _
    exact h _ hb

/-- No limit matters that is at least the number of tokens. -/
theorem nestsWithin_of_length_le {limit : Int} {ts : List Token} (h : (ts.length : Int) ≤ limit) :
    NestsWithin limit ts := by
  intro before t hb _
  have hcount : (before ++ [t]).countP (fun u => u.kind = .openParen) ≤ ts.length :=
    Nat.le_trans List.countP_le_length hb.length_le
  rw [openBrackets]
  omega

end Reckoner
