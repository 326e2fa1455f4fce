import GlslFormula.Proofs.Grammar
import GlslFormula.Tree.Builder

namespace GlslFormula

inductive Expression where
  | number (text : String)
  | symbol (text : String)
  | operator (operator : Operator) (left right : Expression)
  | call (name : String) (arguments : List Expression)

namespace Expression

mutual

/-- The size counts the nodes. -/
def size : Expression → Nat
  | .number _ => 1
  | .symbol _ => 1
  | .operator _ left right => left.size + 1 + right.size
  | .call _ arguments => 1 + sizeAll arguments

def sizeAll : List Expression → Nat
  | [] => 0
  | expression :: rest => expression.size + sizeAll rest

end

/-- An operator stands after the nodes of its left operand. A call stands before its arguments. -/
def top (start : Nat) : Expression → Nat
  | .number _ => start
  | .symbol _ => start
  | .operator _ left _ => start + left.size
  | .call _ _ => start

def tops (start : Nat) : List Expression → List Nat
  | [] => []
  | expression :: rest => expression.top start :: tops (start + expression.size) rest

theorem size_pos (expression : Expression) : 0 < expression.size := by
  cases expression <;> simp [size]

theorem le_top (start : Nat) (expression : Expression) : start ≤ expression.top start := by
  cases expression <;> simp [top]

theorem top_lt (start : Nat) (expression : Expression) :
    expression.top start < start + expression.size := by
  cases expression <;> simp only [top, size] <;> omega

theorem sizeAll_append (first second : List Expression) :
    sizeAll (first ++ second) = sizeAll first + sizeAll second := by
  induction first with
  | nil => simp [sizeAll]
  | cons expression rest inductionHypothesis =>
      simp only [List.cons_append, sizeAll, inductionHypothesis]
      omega

theorem tops_append (start : Nat) (first second : List Expression) :
    tops start (first ++ second) = tops start first ++ tops (start + sizeAll first) second := by
  induction first generalizing start with
  | nil => simp [tops, sizeAll]
  | cons expression rest inductionHypothesis =>
      simp only [List.cons_append, tops, sizeAll, inductionHypothesis, Nat.add_assoc]

theorem mem_tops_lt {start id : Nat} {expressions : List Expression}
    (member : id ∈ tops start expressions) : id < start + sizeAll expressions := by
  induction expressions generalizing start with
  | nil => simp [tops] at member
  | cons expression rest inductionHypothesis =>
      rw [tops, List.mem_cons] at member
      rw [sizeAll]
      rcases member with same | later
      · have bound := expression.top_lt start
        omega
      · have bound := inductionHypothesis later
        omega

end Expression

namespace Tree

/-- A node of the tree has this kind, this text and these children. -/
def Labels (tree : Tree) (id : NodeId) (kind : NodeKind) (text : String)
    (children : List NodeId) : Prop :=
  ∃ node, tree.get? id = some node ∧ node.kind = kind ∧ node.text = text ∧
    node.children = children

mutual

/-- The part of the tree below a node reads as an expression. -/
def Shows (tree : Tree) : NodeId → Expression → Prop
  | id, .number text => tree.Labels id .number text []
  | id, .symbol text => tree.Labels id .symbol text []
  | id, .operator operator left right =>
      ∃ first second, tree.Labels id .operation operator.symbol [first, second] ∧
        tree.Shows first left ∧ tree.Shows second right
  | id, .call name arguments =>
      ∃ children, tree.Labels id .operation name children ∧ tree.ShowsAll children arguments

def ShowsAll (tree : Tree) : List NodeId → List Expression → Prop
  | [], [] => True
  | id :: ids, expression :: rest => tree.Shows id expression ∧ tree.ShowsAll ids rest
  | _, _ => False

end

end Tree

/-- The node of an operation with this rank. -/
def Node.operation (text : String) (rank : Nat) (children : List NodeId) (parent : NodeId) :
    Node where
  kind := .operation
  text := text
  attributes := [(precedenceAttribute, toString rank)]
  children := children
  parent := some parent

namespace Tree

mutual

/-- The nodes from `start` on are those of the expression, with all that a builder writes. -/
def Holds (precedence : Precedence) (tree : Tree) : Nat → Nat → Expression → Prop
  | parent, start, .number text =>
      tree.get? start = some { kind := .number, text, parent := some parent }
  | parent, start, .symbol text =>
      tree.get? start = some { kind := .symbol, text, parent := some parent }
  | parent, start, .operator operator left right =>
      tree.get? (start + left.size) =
          some (.operation operator.symbol (precedence.rank operator)
            [left.top start, right.top (start + left.size + 1)] parent) ∧
        Holds precedence tree (start + left.size) start left ∧
        Holds precedence tree (start + left.size) (start + left.size + 1) right
  | parent, start, .call name arguments =>
      tree.get? start =
          some (.operation name precedence.functionRank (Expression.tops (start + 1) arguments)
            parent) ∧
        HoldsAll precedence tree start (start + 1) arguments

def HoldsAll (precedence : Precedence) (tree : Tree) : Nat → Nat → List Expression → Prop
  | _, _, [] => True
  | parent, start, expression :: rest =>
      Holds precedence tree parent start expression ∧
        HoldsAll precedence tree parent (start + expression.size) rest

end

variable {precedence : Precedence} {tree changed : Tree}

mutual

/-- A change elsewhere keeps a held expression. -/
theorem Holds.congr {parent start : Nat} {expression : Expression}
    (held : tree.Holds precedence parent start expression)
    (same : ∀ id : Nat, start ≤ id → id < start + expression.size →
      changed.get? id = tree.get? id) :
    changed.Holds precedence parent start expression := by
  cases expression with
  | number text => exact (same start (Nat.le_refl _) (by simp [Expression.size])).trans held
  | symbol text => exact (same start (Nat.le_refl _) (by simp [Expression.size])).trans held
  | operator operator left right =>
      rw [Expression.size] at same
      obtain ⟨node, first, second⟩ := held
      refine ⟨(same _ (by omega) (by omega)).trans node, first.congr ?_, second.congr ?_⟩
      · intro id lower upper
        exact same id lower (by omega)
      · intro id lower upper
        exact same id (by omega) (by omega)
  | call name arguments =>
      rw [Expression.size] at same
      obtain ⟨node, inside⟩ := held
      refine ⟨(same _ (by omega) (by omega)).trans node, inside.congr ?_⟩
      intro id lower upper
      exact same id (by omega) (by omega)

theorem HoldsAll.congr {parent start : Nat} {expressions : List Expression}
    (held : tree.HoldsAll precedence parent start expressions)
    (same : ∀ id : Nat, start ≤ id → id < start + Expression.sizeAll expressions →
      changed.get? id = tree.get? id) :
    changed.HoldsAll precedence parent start expressions := by
  cases expressions with
  | nil => trivial
  | cons expression rest =>
      rw [Expression.sizeAll] at same
      obtain ⟨first, others⟩ := held
      refine ⟨first.congr ?_, others.congr ?_⟩
      · intro id lower upper
        exact same id lower (by omega)
      · intro id lower upper
        exact same id (by omega) (by omega)

end

/-- Only the top node of a held expression knows the parent. -/
theorem Holds.reparent {parent start above : Nat} {expression : Expression}
    (held : tree.Holds precedence parent start expression)
    (atTop : changed.get? (expression.top start) =
      (tree.get? (expression.top start)).map fun node => { node with parent := some above })
    (same : ∀ id : Nat, start ≤ id → id < start + expression.size → id ≠ expression.top start →
      changed.get? id = tree.get? id) :
    changed.Holds precedence above start expression := by
  cases expression with
  | number text =>
      rw [Expression.top, held] at atTop
      exact atTop
  | symbol text =>
      rw [Expression.top, held] at atTop
      exact atTop
  | operator operator left right =>
      obtain ⟨node, first, second⟩ := held
      rw [Expression.top, node] at atTop
      simp only [Expression.size, Expression.top] at same
      refine ⟨atTop, first.congr ?_, second.congr ?_⟩
      · intro id lower upper
        exact same id lower (by omega) (by omega)
      · intro id lower upper
        exact same id (by omega) (by omega) (by omega)
  | call name arguments =>
      obtain ⟨node, inside⟩ := held
      rw [Expression.top, node] at atTop
      simp only [Expression.size, Expression.top] at same
      refine ⟨atTop, inside.congr ?_⟩
      intro id lower upper
      exact same id (by omega) (by omega) (by omega)

/-- The top node of a held expression is there, below its parent. -/
theorem Holds.parent_top {parent start : Nat} {expression : Expression}
    (held : tree.Holds precedence parent start expression) :
    ∃ node, tree.get? (expression.top start) = some node ∧ node.parent = some parent := by
  cases expression with
  | number text => exact ⟨_, held, rfl⟩
  | symbol text => exact ⟨_, held, rfl⟩
  | operator operator left right => exact ⟨_, held.1, rfl⟩
  | call name arguments => exact ⟨_, held.1, rfl⟩

theorem holdsAll_append {parent start : Nat} (first second : List Expression) :
    tree.HoldsAll precedence parent start (first ++ second) ↔
      tree.HoldsAll precedence parent start first ∧
        tree.HoldsAll precedence parent (start + Expression.sizeAll first) second := by
  induction first generalizing start with
  | nil => simp [HoldsAll, Expression.sizeAll]
  | cons expression rest inductionHypothesis =>
      simp only [List.cons_append, HoldsAll, Expression.sizeAll, inductionHypothesis,
        Nat.add_assoc, and_assoc]

mutual

/-- A held expression can be read from its top node. -/
theorem Holds.shows {parent start : Nat} {expression : Expression}
    (held : tree.Holds precedence parent start expression) :
    tree.Shows (expression.top start) expression := by
  cases expression with
  | number text => exact ⟨_, held, rfl, rfl, rfl⟩
  | symbol text => exact ⟨_, held, rfl, rfl, rfl⟩
  | operator operator left right =>
      obtain ⟨node, first, second⟩ := held
      exact ⟨_, _, ⟨_, node, rfl, rfl, rfl⟩, first.shows, second.shows⟩
  | call name arguments =>
      obtain ⟨node, inside⟩ := held
      exact ⟨_, ⟨_, node, rfl, rfl, rfl⟩, inside.showsAll⟩

theorem HoldsAll.showsAll {parent start : Nat} {expressions : List Expression}
    (held : tree.HoldsAll precedence parent start expressions) :
    tree.ShowsAll (Expression.tops start expressions) expressions := by
  cases expressions with
  | nil => trivial
  | cons expression rest => exact ⟨held.1.shows, held.2.showsAll⟩

end

end Tree

end GlslFormula
