import Reckoner.Proofs.Expression.Grammar
import Reckoner.Proofs.Expression.Tree

/-! # Precedence

The grammar with its levels: which operators take their operands first. Each rule says which tree
its tokens mean.

* **`Operator.level`** — the operators of each level.
* **`Stratum`, `Reads`** — the phrases of the grammar with levels, and the trees that their tokens
  mean. Operators of level `n` group to the left and take operands of level `n + 1`; the operands of
  the highest operators are signs, a primary and marks of the factorial.
* **`Reads.derives`** — what has a tree is a phrase of the grammar without levels.
* **`Derives.hasTree`** — every phrase of the grammar without levels has a tree. -/

namespace Reckoner

/-- The characters of a token. -/
def Token.span (t : Token) : Span := ⟨t.offset, t.literal.length⟩

/-! ## Levels -/

/-- The operators of each level, from the loosest to the tightest. -/
def Operator.level : Nat → List Operator
  | 0 => [.shiftLeft, .shiftRight]
  | 1 => [.plus, .minus, .plusMinus, .minusPlus]
  | 2 => [.times, .divide, .percent, .timesMinus, .timesPlus, .divideMinus, .dividePlus,
      .percentMinus, .percentPlus]
  | 3 => [.power]
  | _ => []

/-- An operator is of the level that its precedence says. -/
@[simp] theorem Operator.mem_level_iff {op : Operator} {n : Nat} : op ∈ level n ↔ op.precedence = n := by
  match n with
  | 0 => cases op <;> decide
  | 1 => cases op <;> decide
  | 2 => cases op <;> decide
  | 3 => cases op <;> decide
  | n + 4 =>
    -- no operator binds tighter than the power
    have htop := op.precedence_le
    constructor
    · intro h
      cases h
    · intro h
      omega

/-! ## The grammar with levels -/

/-- The phrases of the grammar with levels. -/
inductive Stratum where
  /-- A number, a constant, an expression in brackets, or a call. -/
  | primary
  /-- A primary and marks of the factorial. -/
  | factor
  /-- Signs and a factor. -/
  | operand
  /-- Operators of at least this precedence, and operands. -/
  | level (n : Nat)
  /-- Expressions with commas between them. -/
  | arguments
  deriving DecidableEq

/-- What the **tokens of a phrase mean**. It is a list of trees, which has one entry for every
phrase but arguments. -/
inductive Reads : Stratum → List Token → List Tree → Prop
  | number {t : Token} (kind : t.kind = .number) :
      Reads .primary [t] [.number (Binary64.ofNumeral t.literal.toList) t.span]
  | constant {t : Token} {value : Binary64} (kind : t.kind = .variable)
      (known : constant? t.literal = some value) : Reads .primary [t] [.number value t.span]
  | group {opening closing : Token} {ts : List Token} {tree : Tree}
      (opens : opening.kind = .openParen) (inner : Reads (.level 0) ts [tree])
      (closes : closing.kind = .closeParen) : Reads .primary (opening :: (ts ++ [closing])) [tree]
  | call {name opening closing : Token} {f : Function} {ts : List Token} {trees : List Tree}
      (kind : name.kind = .function) (known : function? name.literal = some f)
      (opens : opening.kind = .openParen) (inner : Reads .arguments ts trees)
      (closes : closing.kind = .closeParen) (arity : ∀ n, f.arity? = some n → trees.length = n) :
      Reads .primary (name :: opening :: (ts ++ [closing]))
        [.call f ⟨name.offset, ((closing.stop - name.offset : Nat) : Int)⟩ trees]
  | primary {ts : List Token} {tree : Tree} (inner : Reads .primary ts [tree]) :
      Reads .factor ts [tree]
  | factorial {ts : List Token} {mark : Token} {tree : Tree} (inner : Reads .factor ts [tree])
      (kind : mark.kind = .factorial) : Reads .factor (ts ++ [mark]) [.factorial mark.offset tree]
  | factor {ts : List Token} {tree : Tree} (inner : Reads .factor ts [tree]) :
      Reads .operand ts [tree]
  /-- A sign that negates. -/
  | negation {s : Token} {ts : List Token} {tree : Tree} (kind : s.kind ∈ TokenKind.negations)
      (inner : Reads .operand ts [tree]) : Reads .operand (s :: ts) [.negate s.offset tree]
  /-- A sign that changes nothing. -/
  | plus {s : Token} {ts : List Token} {tree : Tree} (kind : s.kind = .plus)
      (inner : Reads .operand ts [tree]) : Reads .operand (s :: ts) [tree]
  /-- Above the operators are the operands. -/
  | operand {ts : List Token} {tree : Tree} (inner : Reads .operand ts [tree]) :
      Reads (.level 4) ts [tree]
  | lower {n : Nat} {ts : List Token} {tree : Tree} (inner : Reads (.level (n + 1)) ts [tree]) :
      Reads (.level n) ts [tree]
  | operation {n : Nat} {ls rs : List Token} {t : Token} {op : Operator} {l r : Tree}
      (left : Reads (.level n) ls [l]) (kind : t.kind.operator? = some op)
      (level : op ∈ Operator.level n) (right : Reads (.level (n + 1)) rs [r]) :
      Reads (.level n) (ls ++ t :: rs) [.operation op t.offset l r]
  | argument {ts : List Token} {tree : Tree} (inner : Reads (.level 0) ts [tree]) :
      Reads .arguments ts [tree]
  | comma {ls rs : List Token} {t : Token} {trees : List Tree} {tree : Tree}
      (left : Reads .arguments ls trees) (kind : t.kind = .comma)
      (right : Reads (.level 0) rs [tree]) : Reads .arguments (ls ++ t :: rs) (trees ++ [tree])

/-- No phrase begins with a closing bracket. -/
theorem Reads.head {s : Stratum} {ts : List Token} {trees : List Tree} (h : Reads s ts trees) :
    ∃ t us, ts = t :: us ∧ t.kind ≠ .closeParen := by
  induction h with
  | number kind => exact ⟨_, [], rfl, by rw [kind]; decide⟩
  | constant kind _ => exact ⟨_, [], rfl, by rw [kind]; decide⟩
  | group opens _ _ _ => exact ⟨_, _, rfl, by rw [opens]; decide⟩
  | call kind _ _ _ _ _ _ => exact ⟨_, _, rfl, by rw [kind]; decide⟩
  | negation kind _ _ =>
    refine ⟨_, _, rfl, ?_⟩
    intro hclose
    rw [hclose] at kind
    exact absurd kind (by decide)
  | plus kind _ _ => exact ⟨_, _, rfl, by rw [kind]; decide⟩
  | factorial _ _ ih =>
    obtain ⟨t, us, rfl, ht⟩ := ih
    exact ⟨t, _, rfl, ht⟩
  | operation _ _ _ _ ih _ =>
    obtain ⟨t, us, rfl, ht⟩ := ih
    exact ⟨t, _, rfl, ht⟩
  | comma _ _ _ ih _ =>
    obtain ⟨t, us, rfl, ht⟩ := ih
    exact ⟨t, _, rfl, ht⟩
  | primary _ ih => exact ih
  | factor _ ih => exact ih
  | operand _ ih => exact ih
  | lower _ ih => exact ih
  | argument _ ih => exact ih

/-! ## From levels to phrases -/

/-- The phrase of the grammar without levels, for so many trees. -/
def Stratum.phrase (count : Nat) : Stratum → Phrase
  | .primary => .primary
  | .factor => .factor
  | .operand => .operand
  | .level _ => .expression
  | .arguments => .arguments count

/-- Expressions with an operator between them are an expression. -/
theorem Derives.expression_operation {ls rs : List Token} {t : Token} {op : Operator}
    (left : Derives .expression ls) (kind : t.kind.operator? = some op)
    (right : Derives .expression rs) : Derives .expression (ls ++ t :: rs) := by
  -- the induction is on the right expression, whose last operator stays the last one
  generalize hp : Phrase.expression = p at right
  induction right with
  | operand inner => exact .operation left kind inner
  | @operation ls' rs' t' op' _ kind' right' ih =>
    have hleft : Derives .expression (ls ++ t :: ls') := ih hp
    have h := Derives.operation hleft kind' right'
    rwa [List.append_assoc, List.cons_append] at h
  | _ => cases hp

/-- What has a tree is a phrase. -/
theorem Reads.derives {s : Stratum} {ts : List Token} {trees : List Tree} (h : Reads s ts trees) :
    Derives (s.phrase trees.length) ts := by
  induction h with
  | number kind => exact .number kind
  | constant kind known => exact .constant kind known
  | group opens _ closes ih => exact .group opens ih closes
  | call kind known opens _ closes arity ih => exact .call kind known opens ih closes arity
  | primary _ ih => exact .primary ih
  | factorial _ kind ih => exact .factorial ih kind
  | factor _ ih => exact .factor ih
  | negation kind _ ih => exact .sign (List.mem_cons_of_mem _ kind) ih
  | plus kind _ ih => exact .sign (List.mem_cons.mpr (.inl kind)) ih
  | operand _ ih => exact .operand ih
  | lower _ ih => exact ih
  | operation _ kind _ _ ihl ihr => exact ihl.expression_operation kind ihr
  | argument _ ih => exact .argument ih
  | comma _ kind _ ihl ihr =>
    rw [List.length_append]
    exact .comma ihl kind ihr

/-! ## From phrases to levels -/

/-- What has a tree at one level has it at every lower one. -/
theorem Reads.level_of_le {m n : Nat} {ts : List Token} {tree : Tree} (hmn : m ≤ n)
    (h : Reads (.level n) ts [tree]) : Reads (.level m) ts [tree] := by
  induction hmn with
  | refl => exact h
  | step _ ih => exact ih (.lower h)

/-- **One more operand on the right**: it goes to the last subexpression that its operator may take
as its left operand. -/
theorem Reads.attach {s : Stratum} {ls : List Token} {trees : List Tree} (h : Reads s ls trees)
    {rs : List Token} {t : Token} {op : Operator} {r : Tree} (kind : t.kind.operator? = some op)
    (right : Reads .operand rs [r]) {n : Nat} (hs : s = .level n) (hn : n ≤ op.precedence) :
    ∃ tree, Reads (.level n) (ls ++ t :: rs) [tree] := by
  have htop := op.precedence_le
  -- down the right edge of the tree, as long as the operator binds tighter than the level
  induction h generalizing n with
  | operand inner =>
    cases hs
    omega
  | @lower m ls l inner ih =>
    obtain rfl := Stratum.level.inj hs
    by_cases hlt : m + 1 ≤ op.precedence
    · obtain ⟨tree, htree⟩ := ih rfl hlt
      exact ⟨tree, .lower htree⟩
    · -- the whole left side is the left operand
      have hright := Reads.level_of_le (show m + 1 ≤ 4 by omega) (.operand right)
      have hlevel : op ∈ Operator.level m := Operator.mem_level_iff.mpr (by omega)
      exact ⟨_, .operation (.lower inner) kind hlevel hright⟩
  | @operation m ls' rs' t' op' l' r' left kind' level inner _ ih =>
    obtain rfl := Stratum.level.inj hs
    by_cases hlt : m + 1 ≤ op.precedence
    · -- the new operand becomes part of the right operand
      obtain ⟨tree, htree⟩ := ih rfl hlt
      have h := Reads.operation left kind' level htree
      rw [← List.cons_append, ← List.append_assoc] at h
      exact ⟨_, h⟩
    · -- operators of one level group to the left
      have hright := Reads.level_of_le (show m + 1 ≤ 4 by omega) (.operand right)
      have hlevel : op ∈ Operator.level m := Operator.mem_level_iff.mpr (by omega)
      exact ⟨_, .operation (.operation left kind' level inner) kind hlevel hright⟩
  | _ => cases hs

/-- What it takes for a phrase to have a tree. -/
def Phrase.HasTree (ts : List Token) : Phrase → Prop
  | .primary => ∃ tree, Reads .primary ts [tree]
  | .factor => ∃ tree, Reads .factor ts [tree]
  | .operand => ∃ tree, Reads .operand ts [tree]
  | .expression => ∃ tree, Reads (.level 0) ts [tree]
  | .arguments count => ∃ trees, trees.length = count ∧ Reads .arguments ts trees

/-- **Every phrase has a tree.** -/
theorem Derives.hasTree {p : Phrase} {ts : List Token} (h : Derives p ts) : p.HasTree ts := by
  induction h with
  | number kind => exact ⟨_, .number kind⟩
  | constant kind known => exact ⟨_, .constant kind known⟩
  | group opens _ closes ih =>
    obtain ⟨tree, h⟩ := ih
    exact ⟨_, .group opens h closes⟩
  | call kind known opens _ closes arity ih =>
    obtain ⟨trees, hlen, h⟩ := ih
    refine ⟨_, .call kind known opens h closes ?_⟩
    intro n hn
    rw [hlen, arity n hn]
  | primary _ ih =>
    obtain ⟨tree, h⟩ := ih
    exact ⟨_, .primary h⟩
  | factorial _ kind ih =>
    obtain ⟨tree, h⟩ := ih
    exact ⟨_, .factorial h kind⟩
  | factor _ ih =>
    obtain ⟨tree, h⟩ := ih
    exact ⟨_, .factor h⟩
  | sign kind _ ih =>
    obtain ⟨tree, h⟩ := ih
    -- only a plus leaves the operand as it is
    rcases List.mem_cons.mp kind with hplus | hnegates
    · exact ⟨_, .plus hplus h⟩
    · exact ⟨_, .negation hnegates h⟩
  | operand _ ih =>
    obtain ⟨tree, h⟩ := ih
    exact ⟨_, Reads.level_of_le (Nat.zero_le 4) (.operand h)⟩
  | operation _ kind _ ihl ihr =>
    obtain ⟨l, hl⟩ := ihl
    obtain ⟨r, hr⟩ := ihr
    exact hl.attach kind hr rfl (Nat.zero_le _)
  | argument _ ih =>
    obtain ⟨tree, h⟩ := ih
    exact ⟨[tree], rfl, .argument h⟩
  | comma _ kind _ ihl ihr =>
    obtain ⟨trees, hlen, hl⟩ := ihl
    obtain ⟨tree, hr⟩ := ihr
    refine ⟨trees ++ [tree], ?_, .comma hl kind hr⟩
    rw [List.length_append, hlen]
    rfl

end Reckoner
