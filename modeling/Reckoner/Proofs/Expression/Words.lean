import Reckoner.Proofs.Expression.Context
import Reckoner.Proofs.Postfix.Acceptance
import Reckoner.Proofs.Postfix.Layout

/-! # The words of a phrase

Where the tokens of a phrase stand does not matter for its trees, but for their places. So tokens with the
words of an expression have its program.

* **`Reads.exists_of_words`** — tokens with the same words mean the same trees.
* **`nestsWithin_of_words`** — their brackets nest alike.
* **`exists_program_of_words`** — a text with the words of an expression has its program. -/

namespace Reckoner

namespace Tree

/-- Several trees without their places. -/
@[simp] theorem map_unplaced_postorders (ts : List Tree) :
    (postorders ts).map Instruction.unplaced = (ts.map unplaced).flatten := by
  induction ts with
  | nil => rfl
  | cons t ts ih =>
    rw [postorders, List.map_append, ih, List.map_cons, List.flatten_cons]
    rfl

/-- A negation without its place. -/
@[simp] theorem unplaced_negate (offset : Int) (t : Tree) :
    (negate offset t).unplaced = t.unplaced ++ [.negate 0] := by
  rw [unplaced, postorder, List.map_append]
  rfl

/-- A factorial without its place. -/
@[simp] theorem unplaced_factorial (offset : Int) (t : Tree) :
    (factorial offset t).unplaced = t.unplaced ++ [.factorial 0] := by
  rw [unplaced, postorder, List.map_append]
  rfl

/-- An operation without its place. -/
@[simp] theorem unplaced_operation (op : Operator) (offset : Int) (l r : Tree) :
    (operation op offset l r).unplaced = l.unplaced ++ (r.unplaced ++ [.operation op 0]) := by
  rw [unplaced, postorder, List.map_append, List.map_append]
  rfl

/-- A call without its place. -/
@[simp] theorem unplaced_call (f : Function) (span : Span) (ts : List Tree) :
    (call f span ts).unplaced = (ts.map unplaced).flatten ++ [.call f ts.length ⟨0, 0⟩] := by
  rw [unplaced, postorder, List.map_append, map_unplaced_postorders]
  rfl

/-- One tree, and another one that is the same but for its places. -/
theorem exists_of_map_unplaced {ts : List Tree} {t : Tree} (h : ts.map unplaced = [t].map unplaced) :
    ∃ u, ts = [u] ∧ u.unplaced = t.unplaced := by
  obtain ⟨u, us, rfl, hu, hus⟩ := List.map_eq_cons_iff.mp h
  rw [List.map_nil, List.map_eq_nil_iff] at hus
  exact ⟨u, by rw [hus], hu⟩

end Tree

namespace Token

/-- The first of several words, and the others. -/
theorem exists_of_map_word_cons {t : Token} {ts us : List Token}
    (h : us.map word = (t :: ts).map word) :
    ∃ u us', us = u :: us' ∧ u.kind = t.kind ∧ u.literal = t.literal ∧ us'.map word = ts.map word := by
  obtain ⟨u, us', rfl, hu, hus⟩ := List.map_eq_cons_iff.mp h
  obtain ⟨hkind, hliteral⟩ := Prod.mk.inj hu
  exact ⟨u, us', rfl, hkind, hliteral, hus⟩

/-- Tokens with the words of two parts are two such parts. -/
theorem exists_of_map_word_append {ls rs us : List Token} (h : us.map word = (ls ++ rs).map word) :
    ∃ ls' rs', us = ls' ++ rs' ∧ ls'.map word = ls.map word ∧ rs'.map word = rs.map word := by
  rw [List.map_append] at h
  exact List.map_eq_append_iff.mp h

/-- The words of a phrase, and one after it. -/
theorem exists_of_map_word_concat {t : Token} {ts us : List Token}
    (h : us.map word = (ts ++ [t]).map word) :
    ∃ us' u, us = us' ++ [u] ∧ us'.map word = ts.map word ∧ u.kind = t.kind := by
  obtain ⟨us', vs, rfl, hus, hvs⟩ := exists_of_map_word_append h
  obtain ⟨u, vs, rfl, hkind, -, hnil⟩ := exists_of_map_word_cons hvs
  rw [List.map_nil, List.map_eq_nil_iff] at hnil
  exact ⟨us', u, by rw [hnil], hus, hkind⟩

end Token

/-- A phrase whose trees are one tree, but for its places, has one tree. -/
theorem Reads.exists_of_singleton {s : Stratum} {ts : List Token} {tree : Tree}
    (h : ∃ trees, Reads s ts trees ∧ trees.map Tree.unplaced = [tree].map Tree.unplaced) :
    ∃ tree', Reads s ts [tree'] ∧ tree'.unplaced = tree.unplaced := by
  obtain ⟨trees, hreads, htrees⟩ := h
  obtain ⟨tree', rfl, htree⟩ := Tree.exists_of_map_unplaced htrees
  exact ⟨tree', hreads, htree⟩

/-- **Tokens with the same words mean the same trees**, but for the places. -/
theorem Reads.exists_of_words {s : Stratum} {ts us : List Token} {trees : List Tree}
    (h : Reads s ts trees) (same : us.map Token.word = ts.map Token.word) :
    ∃ trees', Reads s us trees' ∧ trees'.map Tree.unplaced = trees.map Tree.unplaced := by
  induction h generalizing us with
  | number kind =>
    obtain ⟨u, us, rfl, hkind, hliteral, hnil⟩ := Token.exists_of_map_word_cons same
    obtain rfl := List.map_eq_nil_iff.mp hnil
    refine ⟨_, .number (hkind.trans kind), ?_⟩
    rw [hliteral]
    rfl
  | constant kind known =>
    obtain ⟨u, us, rfl, hkind, hliteral, hnil⟩ := Token.exists_of_map_word_cons same
    obtain rfl := List.map_eq_nil_iff.mp hnil
    exact ⟨_, .constant (hkind.trans kind) (hliteral ▸ known), rfl⟩
  | group opens inner closes ih =>
    obtain ⟨opening, us, rfl, hopens, -, hus⟩ := Token.exists_of_map_word_cons same
    obtain ⟨us, closing, rfl, hus, hcloses⟩ := Token.exists_of_map_word_concat hus
    obtain ⟨tree', htree, hsame⟩ := exists_of_singleton (ih hus)
    refine ⟨_, .group (hopens.trans opens) htree (hcloses.trans closes), ?_⟩
    rw [List.map_singleton, List.map_singleton, hsame]
  | call kind known opens inner closes arity ih =>
    obtain ⟨name, us, rfl, hkind, hliteral, hus⟩ := Token.exists_of_map_word_cons same
    obtain ⟨opening, us, rfl, hopens, -, hus⟩ := Token.exists_of_map_word_cons hus
    obtain ⟨us, closing, rfl, hus, hcloses⟩ := Token.exists_of_map_word_concat hus
    obtain ⟨trees', htrees, hsame⟩ := ih hus
    have hlength := congrArg List.length hsame
    rw [List.length_map, List.length_map] at hlength
    refine ⟨_, .call (hkind.trans kind) (hliteral ▸ known) (hopens.trans opens) htrees
      (hcloses.trans closes) (fun n hn => hlength.trans (arity n hn)), ?_⟩
    rw [List.map_singleton, List.map_singleton, Tree.unplaced_call, Tree.unplaced_call, hsame, hlength]
  | factorial inner kind ih =>
    obtain ⟨us, mark, rfl, hus, hkind⟩ := Token.exists_of_map_word_concat same
    obtain ⟨tree', htree, hsame⟩ := exists_of_singleton (ih hus)
    refine ⟨_, .factorial htree (hkind.trans kind), ?_⟩
    rw [List.map_singleton, List.map_singleton, Tree.unplaced_factorial, Tree.unplaced_factorial, hsame]
  | negation kind inner ih =>
    obtain ⟨u, us, rfl, hkind, -, hus⟩ := Token.exists_of_map_word_cons same
    obtain ⟨tree', htree, hsame⟩ := exists_of_singleton (ih hus)
    refine ⟨_, .negation (hkind ▸ kind) htree, ?_⟩
    rw [List.map_singleton, List.map_singleton, Tree.unplaced_negate, Tree.unplaced_negate, hsame]
  | plus kind inner ih =>
    obtain ⟨u, us, rfl, hkind, -, hus⟩ := Token.exists_of_map_word_cons same
    obtain ⟨tree', htree, hsame⟩ := exists_of_singleton (ih hus)
    refine ⟨_, .plus (hkind.trans kind) htree, ?_⟩
    rw [List.map_singleton, List.map_singleton, hsame]
  | operation left kind level right ihl ihr =>
    obtain ⟨ls', us, rfl, hls, hus⟩ := Token.exists_of_map_word_append same
    obtain ⟨u, rs', rfl, hkind, -, hrs⟩ := Token.exists_of_map_word_cons hus
    obtain ⟨l', hl, hsamel⟩ := exists_of_singleton (ihl hls)
    obtain ⟨r', hr, hsamer⟩ := exists_of_singleton (ihr hrs)
    refine ⟨_, .operation hl (hkind ▸ kind) level hr, ?_⟩
    rw [List.map_singleton, List.map_singleton, Tree.unplaced_operation, Tree.unplaced_operation,
      hsamel, hsamer]
  | comma left kind right ihl ihr =>
    obtain ⟨ls', us, rfl, hls, hus⟩ := Token.exists_of_map_word_append same
    obtain ⟨u, rs', rfl, hkind, -, hrs⟩ := Token.exists_of_map_word_cons hus
    obtain ⟨trees', hl, hsamel⟩ := ihl hls
    obtain ⟨tree', hr, hsamer⟩ := exists_of_singleton (ihr hrs)
    refine ⟨_, .comma hl (hkind.trans kind) hr, ?_⟩
    rw [List.map_append, List.map_append, hsamel, List.map_singleton, List.map_singleton, hsamer]
  | primary inner ih =>
    obtain ⟨tree', htree, hsame⟩ := exists_of_singleton (ih same)
    exact ⟨_, .primary htree, congrArg ([·]) hsame⟩
  | factor inner ih =>
    obtain ⟨tree', htree, hsame⟩ := exists_of_singleton (ih same)
    exact ⟨_, .factor htree, congrArg ([·]) hsame⟩
  | operand inner ih =>
    obtain ⟨tree', htree, hsame⟩ := exists_of_singleton (ih same)
    exact ⟨_, .operand htree, congrArg ([·]) hsame⟩
  | lower inner ih =>
    obtain ⟨tree', htree, hsame⟩ := exists_of_singleton (ih same)
    exact ⟨_, .lower htree, congrArg ([·]) hsame⟩
  | argument inner ih =>
    obtain ⟨tree', htree, hsame⟩ := exists_of_singleton (ih same)
    exact ⟨_, .argument htree, congrArg ([·]) hsame⟩

/-! ## Programs -/

/-- Brackets nest alike in tokens with the same words. -/
theorem nestsWithin_of_words {limit : Int} {ts us : List Token}
    (same : us.map Token.word = ts.map Token.word) (h : NestsWithin limit ts) : NestsWithin limit us := by
  induction ts generalizing limit us with
  | nil =>
    rw [List.map_nil, List.map_eq_nil_iff] at same
    rw [same]
    exact nestsWithin_nil limit
  | cons t ts ih =>
    obtain ⟨u, us, rfl, hkind, -, hus⟩ := Token.exists_of_map_word_cons same
    rw [nestsWithin_cons] at h ⊢
    have hopen : openBrackets [u] = openBrackets [t] := by
      simp only [openBrackets, List.countP_singleton, hkind]
    rw [hkind, hopen]
    exact ⟨h.1, ih hus h.2⟩

/-- **A text with the words of an expression** has the program of the expression, but for its places. -/
theorem exists_program_of_words {s : String} {ts us : List Token} {last : Token} {tree : Tree}
    {maxDepth : Int} (tokens : tokenize (some s) = .ok us)
    (same : us.map Token.word = (ts ++ [last]).map Token.word) (finish : last.kind = .finish)
    (reads : Reads (.level 0) ts [tree]) (nests : NestsWithin maxDepth ts) :
    ∃ p, assemble (some s) maxDepth = .ok p ∧
      p.instructions.map Instruction.unplaced = tree.unplaced := by
  obtain ⟨us, last', rfl, hus, hlast⟩ := Token.exists_of_map_word_concat same
  obtain ⟨tree', hreads, htree⟩ := Reads.exists_of_singleton (reads.exists_of_words hus)
  exact ⟨_, assemble_of_reads tokens (hlast.trans finish) hreads (nestsWithin_of_words hus nests), htree⟩

end Reckoner
