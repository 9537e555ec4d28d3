import Reckoner.Postfix.Machine

/-! # Expression trees

What an expression means, with no stack and no order of reading: operations over subexpressions.
Every node keeps the place in the text that it comes from.

* **`Tree`** — a number, a negation, a binary operation, a factorial, or a call.
* **`Tree.postorder`** — the instructions of a tree, operands before the operation on them.
* **`Tree.evaluate`** — the value of a tree by recursion, left before right; the first reducer that
  refuses its arguments decides the failure.
* **`Tree.grow`** — the tree that one instruction makes of finished trees. Growing along the
  postorder of a tree gives the tree back, so no two trees have one postorder
  (`Tree.postorder_injective`). -/

namespace Reckoner

/-- An **expression tree**. -/
inductive Tree where
  | number (value : Binary64) (span : Span)
  | negate (offset : Int) (operand : Tree)
  | operation (operator : Operator) (offset : Int) (left right : Tree)
  | factorial (offset : Int) (operand : Tree)
  /-- A call; its span reaches from the name to the closing bracket. -/
  | call (function : Function) (span : Span) (arguments : List Tree)

namespace Tree

/-! ## The instructions of a tree -/

mutual

/-- The **postorder** of a tree: the operands from left to right, then the operation. -/
def postorder : Tree → List Instruction
  | .number value span => [.number value span]
  | .negate offset t => t.postorder ++ [.negate offset]
  | .operation op offset l r => l.postorder ++ (r.postorder ++ [.operation op offset])
  | .factorial offset t => t.postorder ++ [.factorial offset]
  | .call f span ts => postorders ts ++ [.call f ts.length span]

/-- The postorders of several trees, one after the other. -/
def postorders : List Tree → List Instruction
  | [] => []
  | t :: ts => t.postorder ++ postorders ts

end

/-- The programs of several trees follow each other. -/
@[simp] theorem postorders_append (ts us : List Tree) :
    postorders (ts ++ us) = postorders ts ++ postorders us := by
  induction ts with
  | nil => rfl
  | cons t ts ih => rw [List.cons_append, postorders, postorders, ih, List.append_assoc]

/-- The program of one tree among no others. -/
@[simp] theorem postorders_singleton (t : Tree) : postorders [t] = t.postorder := by
  rw [postorders, postorders, List.append_nil]

/-! ## The value of a tree -/

/-- The value of a function on its arguments in a call at the given place. -/
def applyAt [Numerics] (source : String) (f : Function) (span : Span) (xs : List Binary64) :
    Except Failure Binary64 :=
  match f.apply xs with
  | .ok value => .ok value
  | .error .noElement => .error .noElement
  | .error reason =>
    .error (.fault ⟨.domain f.name reason.message, source, span.offset, span.length⟩)

mutual

/-- The **value of a tree**. -/
def evaluate [Numerics] (source : String) : Tree → Except Failure Binary64
  | .number value _ => .ok value
  | .negate _ t => (t.evaluate source).map fun x => -x
  | .operation op _ l r =>
    (l.evaluate source).bind fun x => (r.evaluate source).map fun y => op.apply x y
  | .factorial _ t => (t.evaluate source).map Binary64.factorial
  | .call f span ts => (evaluateAll source ts).bind (applyAt source f span)

/-- The values of several trees, from left to right. -/
def evaluateAll [Numerics] (source : String) : List Tree → Except Failure (List Binary64)
  | [] => .ok []
  | t :: ts => (t.evaluate source).bind fun x => (evaluateAll source ts).map fun xs => x :: xs

end

/-- Every tree has a value. -/
theorem length_of_evaluateAll [Numerics] {source : String} {ts : List Tree} {xs : List Binary64}
    (h : evaluateAll source ts = .ok xs) : xs.length = ts.length := by
  induction ts generalizing xs with
  | nil =>
    rw [evaluateAll] at h
    cases h
    rfl
  | cons t ts ih =>
    rw [evaluateAll] at h
    cases ht : t.evaluate source with
    | error e => rw [ht] at h; cases h
    | ok x =>
      rw [ht] at h
      cases hts : evaluateAll source ts with
      | error e => simp [hts, Except.bind, Except.map] at h
      | ok ys =>
        simp only [hts, Except.bind, Except.map, Except.ok.injEq] at h
        rw [← h, List.length_cons, List.length_cons, ih hts]

/-! ## The tree of a postorder -/

/-- The finished trees after an instruction, the latest first. Only instructions that find too few
trees do not grow one. -/
def grow : List Tree → Instruction → List Tree
  | ts, .number value span => .number value span :: ts
  | t :: ts, .negate offset => .negate offset t :: ts
  | r :: l :: ts, .operation op offset => .operation op offset l r :: ts
  | t :: ts, .factorial offset => .factorial offset t :: ts
  | ts, .call f arity span => .call f span (ts.take arity).reverse :: ts.drop arity
  | ts, _ => ts

mutual

/-- Growing along a postorder gives the tree back. -/
@[simp] theorem foldl_grow_postorder (t : Tree) (finished : List Tree) :
    t.postorder.foldl grow finished = t :: finished := by
  match t with
  | .number value span => rfl
  | .negate offset t =>
    rw [postorder, List.foldl_append, foldl_grow_postorder t]
    rfl
  | .operation op offset l r =>
    rw [postorder, List.foldl_append, List.foldl_append, foldl_grow_postorder l,
      foldl_grow_postorder r]
    rfl
  | .factorial offset t =>
    rw [postorder, List.foldl_append, foldl_grow_postorder t]
    rfl
  | .call f span ts =>
    -- the arguments are the finished trees on top, the last one first
    have hlen : ts.length = ts.reverse.length := by rw [List.length_reverse]
    rw [postorder, List.foldl_append, foldl_grow_postorders ts, List.foldl_cons, List.foldl_nil,
      grow, hlen, List.take_left, List.drop_left, List.reverse_reverse]

/-- **The trees of a program are those that it was made from**. -/
@[simp] theorem foldl_grow_postorders (ts finished : List Tree) :
    (postorders ts).foldl grow finished = ts.reverse ++ finished := by
  match ts with
  | [] => rfl
  | t :: ts =>
    rw [postorders, List.foldl_append, foldl_grow_postorder t, foldl_grow_postorders ts,
      List.reverse_cons, List.append_assoc, List.singleton_append]

end

/-- **No two trees have one postorder.** -/
theorem postorder_injective {t u : Tree} (h : t.postorder = u.postorder) : t = u := by
  -- growing is a left inverse
  have ht := foldl_grow_postorder t []
  rw [h, foldl_grow_postorder u []] at ht
  exact (List.cons.inj ht).1.symm

end Tree

end Reckoner
