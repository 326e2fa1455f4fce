/-
This file describes a formula that is read in part. A context is what surrounds the value that
comes next, and the tree built so far holds the context around a hole.
-/
import GlslFormula.Proofs.Expression

namespace GlslFormula

/-- The next value is the right operand of an operator, the inside of a group or an argument of a
call, unless it starts the whole formula. -/
inductive Context where
  | whole
  | operand (operator : Operator) (left : Expression) (outer : Context)
  | group (outer : Context)
  | argument (name : String) (earlier : List Expression) (outer : Context)

namespace Context

/-- The next created node has this number. -/
def next : Context → Nat
  | .whole => 1
  | .operand _ left outer => outer.next + left.size + 1
  | .group outer => outer.next
  | .argument _ earlier outer => outer.next + 1 + Expression.sizeAll earlier

/-- The next value goes below this node. -/
def node : Context → Nat
  | .whole => Tree.root
  | .operand _ left outer => outer.next + left.size
  | .group outer => outer.node
  | .argument _ _ outer => outer.next

/-- Groups and calls are scopes. -/
def scopes : Context → List Scope
  | .whole => []
  | .operand _ _ outer => outer.scopes
  | .group outer => ⟨outer.node, .group⟩ :: outer.scopes
  | .argument _ _ outer => ⟨outer.next, .call⟩ :: outer.scopes

theorem node_lt_next (context : Context) : context.node < context.next := by
  induction context with
  | whole => exact Nat.one_pos
  | operand operator left outer inductionHypothesis => simp only [node, next]; omega
  | group outer inductionHypothesis => exact inductionHypothesis
  | argument name earlier outer inductionHypothesis => simp only [node, next]; omega

/-- A chain starts in the whole formula, in a group or in an argument. -/
def StartsChain : Context → Prop
  | .whole => True
  | .operand _ _ _ => False
  | .group _ => True
  | .argument _ _ _ => True

/-- The node of the innermost scope. -/
def scopeNode : Context → Nat
  | .whole => Tree.root
  | .operand _ _ outer => outer.scopeNode
  | .group outer => outer.node
  | .argument _ _ outer => outer.next

theorem scopeNode_lt_next (context : Context) : context.scopeNode < context.next := by
  induction context with
  | whole => exact Nat.one_pos
  | operand operator left outer inductionHypothesis => simp only [scopeNode, next]; omega
  | group outer inductionHypothesis => exact outer.node_lt_next
  | argument name earlier outer inductionHypothesis => simp only [scopeNode, next]; omega

/-- Operators that end at a new operator become its left operand. -/
def climb (precedence : Precedence) (incoming : Operator) :
    Context → Expression → Context × Expression
  | .operand operator left outer, value =>
      if precedence.mustClimb (precedence.rank operator) (some incoming) then
        outer.climb precedence incoming (.operator operator left value)
      else (.operand operator left outer, value)
  | .whole, value => (.whole, value)
  | .group outer, value => (.group outer, value)
  | .argument name earlier outer, value => (.argument name earlier outer, value)

/-- At the end of a chain each pending operator has its right operand. -/
def collapse : Context → Expression → Context × Expression
  | .operand operator left outer, value => outer.collapse (.operator operator left value)
  | .whole, value => (.whole, value)
  | .group outer, value => (.group outer, value)
  | .argument name earlier outer, value => (.argument name earlier outer, value)

/-- A climb stays inside the innermost scope. -/
theorem scopes_climb (precedence : Precedence) (incoming : Operator) (context : Context)
    (value : Expression) :
    (context.climb precedence incoming value).1.scopes = context.scopes := by
  induction context generalizing value with
  | operand operator left outer inductionHypothesis =>
      rw [climb]
      split
      · exact inductionHypothesis _
      · rfl
  | _ => rfl

theorem scopes_collapse (context : Context) (value : Expression) :
    (context.collapse value).1.scopes = context.scopes := by
  induction context generalizing value with
  | operand operator left outer inductionHypothesis => exact inductionHypothesis _
  | _ => rfl

end Context

namespace Tree

/-- The tree holds the context, and the nodes of the hole are where the next value goes. -/
def Surrounds (precedence : Precedence) (tree : Tree) : Context → List Nat → Prop
  | .whole, hole => tree.get? root = some { kind := .root, text := "", children := hole }
  | .operand operator left outer, hole =>
      tree.get? (outer.next + left.size) =
          some (.operation operator.symbol (precedence.rank operator)
            (left.top outer.next :: hole) outer.node) ∧
        tree.Holds precedence (outer.next + left.size) outer.next left ∧
        Surrounds precedence tree outer [outer.next + left.size]
  | .group outer, hole => Surrounds precedence tree outer hole
  | .argument name earlier outer, hole =>
      tree.get? outer.next =
          some (.operation name precedence.functionRank
            (Expression.tops (outer.next + 1) earlier ++ hole) outer.node) ∧
        tree.HoldsAll precedence outer.next (outer.next + 1) earlier ∧
        Surrounds precedence tree outer [outer.next]

/-- The tree is complete up to the value that comes next. -/
structure Awaits (precedence : Precedence) (tree : Tree) (context : Context) : Prop where
  around : tree.Surrounds precedence context []
  size : tree.size = context.next

/-- The tree is complete up to the end of a value in the context. -/
structure Fills (precedence : Precedence) (tree : Tree) (context : Context)
    (value : Expression) : Prop where
  around : tree.Surrounds precedence context [value.top context.next]
  inside : tree.Holds precedence context.node context.next value
  size : tree.size = context.next + value.size

variable {precedence : Precedence} {tree changed : Tree}

/-- A right operand completes its operator. -/
theorem fills_operand_iff {operator : Operator} {left value : Expression} {outer : Context} :
    tree.Fills precedence (.operand operator left outer) value ↔
      tree.Fills precedence outer (.operator operator left value) := by
  constructor
  · rintro ⟨⟨node, first, around⟩, inside, size⟩
    refine ⟨around, ⟨node, first, inside⟩, ?_⟩
    rw [size, Context.next, Expression.size]
    omega
  · rintro ⟨around, ⟨node, first, inside⟩, size⟩
    refine ⟨⟨node, first, around⟩, inside, ?_⟩
    rw [size, Context.next, Expression.size]
    omega

/-- A group has no node of its own. -/
theorem fills_group_iff {value : Expression} {outer : Context} :
    tree.Fills precedence (.group outer) value ↔ tree.Fills precedence outer value := by
  constructor
  · rintro ⟨around, inside, size⟩
    exact ⟨around, inside, size⟩
  · rintro ⟨around, inside, size⟩
    exact ⟨around, inside, size⟩

theorem awaits_group_iff {outer : Context} :
    tree.Awaits precedence (.group outer) ↔ tree.Awaits precedence outer := by
  constructor
  · rintro ⟨around, size⟩
    exact ⟨around, size⟩
  · rintro ⟨around, size⟩
    exact ⟨around, size⟩

/-- The last argument completes a call. -/
theorem Fills.call {name : String} {earlier : List Expression} {value : Expression}
    {outer : Context} (filled : tree.Fills precedence (.argument name earlier outer) value) :
    tree.Fills precedence outer (.call name (earlier ++ [value])) := by
  obtain ⟨⟨node, before, around⟩, inside, size⟩ := filled
  refine ⟨around, ⟨?_, ?_⟩, ?_⟩
  · rw [Expression.tops_append]
    exact node
  · rw [holdsAll_append]
    exact ⟨before, inside, trivial⟩
  · rw [size, Context.next, Expression.size, Expression.sizeAll_append]
    simp only [Expression.sizeAll]
    omega

/-- A comma leaves room for one more argument. -/
theorem Fills.comma {name : String} {earlier : List Expression} {value : Expression}
    {outer : Context} (filled : tree.Fills precedence (.argument name earlier outer) value) :
    tree.Awaits precedence (.argument name (earlier ++ [value]) outer) := by
  obtain ⟨around, ⟨node, arguments⟩, size⟩ := filled.call
  refine ⟨⟨?_, arguments, around⟩, ?_⟩
  · rw [List.append_nil]
    exact node
  · rw [size, Context.next, Expression.size]
    omega

/-- The climb of an operator only moves the border between the value and its context. -/
theorem Fills.climb {context : Context} {value : Expression}
    (filled : tree.Fills precedence context value) (incoming : Operator) :
    tree.Fills precedence (context.climb precedence incoming value).1
      (context.climb precedence incoming value).2 := by
  induction context generalizing value with
  | operand operator left outer inductionHypothesis =>
      rw [Context.climb]
      split
      · exact inductionHypothesis (fills_operand_iff.mp filled)
      · exact filled
  | _ => exact filled

theorem Fills.collapse {context : Context} {value : Expression}
    (filled : tree.Fills precedence context value) :
    tree.Fills precedence (context.collapse value).1 (context.collapse value).2 := by
  induction context generalizing value with
  | operand operator left outer inductionHypothesis =>
      exact inductionHypothesis (fills_operand_iff.mp filled)
  | _ => exact filled

/-- A change behind the context keeps it. -/
theorem Surrounds.congr {context : Context} {hole : List Nat}
    (around : tree.Surrounds precedence context hole)
    (same : ∀ id : Nat, id < context.next → changed.get? id = tree.get? id) :
    changed.Surrounds precedence context hole := by
  induction context generalizing hole with
  | whole => exact (same root (by simp [root, Context.next])).trans around
  | operand operator left outer inductionHypothesis =>
      rw [Context.next] at same
      obtain ⟨node, first, outside⟩ := around
      refine ⟨(same _ (by omega)).trans node, first.congr ?_, inductionHypothesis outside ?_⟩
      · intro id lower upper
        exact same id (by omega)
      · intro id upper
        exact same id (by omega)
  | group outer inductionHypothesis => exact inductionHypothesis around same
  | argument name earlier outer inductionHypothesis =>
      rw [Context.next] at same
      obtain ⟨node, before, outside⟩ := around
      refine ⟨(same _ (by omega)).trans node, before.congr ?_, inductionHypothesis outside ?_⟩
      · intro id lower upper
        exact same id (by omega)
      · intro id upper
        exact same id (by omega)

/-- A change of the children of the innermost node changes what the hole holds. -/
theorem Surrounds.refill {context : Context} {hole filled : List Nat}
    (around : tree.Surrounds precedence context hole) (change : List Nat → List Nat)
    (atNode : changed.get? context.node =
      (tree.get? context.node).map fun node => { node with children := change node.children })
    (same : ∀ id : Nat, id < context.next → id ≠ context.node → changed.get? id = tree.get? id)
    (changes : ∀ earlier : List Nat, (∀ id ∈ earlier, id < context.next) →
      change (earlier ++ hole) = earlier ++ filled) :
    changed.Surrounds precedence context filled := by
  induction context with
  | whole =>
      have filling := changes [] (by simp)
      rw [Context.node, around] at atNode
      simp only [List.nil_append] at filling
      simp only [Option.map_some, filling] at atNode
      exact atNode
  | operand operator left outer inductionHypothesis =>
      simp only [Context.next, Context.node] at same atNode changes
      obtain ⟨node, first, outside⟩ := around
      have bound := left.top_lt outer.next
      have filling : change (left.top outer.next :: hole) = left.top outer.next :: filled :=
        changes [left.top outer.next] (by
          intro id member
          rw [List.mem_singleton.mp member]
          omega)
      rw [node] at atNode
      refine ⟨?_, first.congr ?_, outside.congr ?_⟩
      · rw [atNode]
        simp only [Option.map_some, Node.operation]
        rw [filling]
      · intro id lower upper
        exact same id (by omega) (by omega)
      · intro id upper
        exact same id (by omega) (by omega)
  | group outer inductionHypothesis => exact inductionHypothesis around atNode same changes
  | argument name earlier outer inductionHypothesis =>
      simp only [Context.next, Context.node] at same atNode changes
      obtain ⟨node, before, outside⟩ := around
      have filling := changes (Expression.tops (outer.next + 1) earlier) (by
        intro id member
        have bound := Expression.mem_tops_lt member
        omega)
      rw [node] at atNode
      refine ⟨?_, before.congr ?_, outside.congr ?_⟩
      · rw [atNode]
        simp only [Option.map_some, Node.operation]
        rw [filling]
      · intro id lower upper
        exact same id (by omega) (by omega)
      · intro id upper
        exact same id (by omega) (by omega)

/-- The innermost node of a context has the hole at the end of its children. -/
theorem Surrounds.children_node {context : Context} {hole : List Nat}
    (around : tree.Surrounds precedence context hole) :
    ∃ (node : Node) (earlier : List Nat), tree.get? context.node = some node ∧
      node.children = earlier ++ hole ∧ ∀ id ∈ earlier, id < context.next := by
  induction context with
  | whole => exact ⟨_, [], around, rfl, by simp⟩
  | operand operator left outer inductionHypothesis =>
      refine ⟨_, [left.top outer.next], around.1, rfl, ?_⟩
      intro id member
      have bound := left.top_lt outer.next
      rw [List.mem_singleton.mp member, Context.next]
      omega
  | group outer inductionHypothesis => exact inductionHypothesis around
  | argument name earlier outer inductionHypothesis =>
      refine ⟨_, Expression.tops (outer.next + 1) earlier, around.1, rfl, ?_⟩
      intro id member
      have bound := Expression.mem_tops_lt member
      rw [Context.next]
      omega

/-- The path from the innermost node up to the root stays inside the context. -/
theorem Surrounds.isOnPath_eq_false {context : Context} {hole : List Nat} {target : Nat}
    (around : tree.Surrounds precedence context hole) (behind : context.next ≤ target)
    (same : ∀ id : Nat, id < context.next → changed.parent? id = tree.parent? id) (fuel : Nat) :
    changed.isOnPath target fuel (some context.node) = false := by
  induction context generalizing hole fuel with
  | whole =>
      cases fuel with
      | zero => rfl
      | succ fuel =>
          have different : Tree.root ≠ target := Nat.ne_of_lt behind
          have orphan : changed.parent? root = none := by
            rw [same root (by simp [root, Context.next]), parent?, around]
            rfl
          rw [isOnPath, Context.node, if_neg different, orphan]
          cases fuel <;> rfl
  | operand operator left outer inductionHypothesis =>
      rw [Context.next] at behind same
      cases fuel with
      | zero => rfl
      | succ fuel =>
          have different : outer.next + left.size ≠ target := by omega
          have above : changed.parent? (outer.next + left.size) = some outer.node := by
            rw [same _ (by omega), parent?, around.1]
            rfl
          rw [isOnPath, Context.node, if_neg different, above]
          exact inductionHypothesis around.2.2 (by omega) (fun id upper => same id (by omega)) fuel
  | group outer inductionHypothesis => exact inductionHypothesis around behind same fuel
  | argument name earlier outer inductionHypothesis =>
      rw [Context.next] at behind same
      cases fuel with
      | zero => rfl
      | succ fuel =>
          have different : outer.next ≠ target := by omega
          have above : changed.parent? outer.next = some outer.node := by
            rw [same _ (by omega), parent?, around.1]
            rfl
          rw [isOnPath, Context.node, if_neg different, above]
          exact inductionHypothesis around.2.2 (by omega) (fun id upper => same id (by omega)) fuel

end Tree

end GlslFormula
