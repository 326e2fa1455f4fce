import GlslFormula.Proofs.Context

namespace GlslFormula

/-- The node without the attribute that holds its rank. -/
def Node.unranked (node : Node) : Node :=
  { node with attributes := node.attributes.erase precedenceAttribute }

/-- The nodes of the tree without their ranks. -/
def Tree.unranked (tree : Tree) : Tree := ⟨tree.nodes.map Node.unranked⟩

theorem Operator.symbol_injective : Function.Injective Operator.symbol := by
  intro first second same
  have found := congrArg ofSymbol? same
  rw [ofSymbol?_symbol, ofSymbol?_symbol] at found
  exact Option.some.inj found

/-- The relation holds between the nodes that one part of an expression has under two tables. -/
structure Node.Corresponds (relates : Node → Node → Prop) (first second : Precedence) : Prop where
  root : ∀ children : List NodeId,
    relates { kind := .root, text := "", children } { kind := .root, text := "", children }
  leaf : ∀ (kind : NodeKind) (text : String) (parent : NodeId),
    relates { kind, text, parent := some parent } { kind, text, parent := some parent }
  operator : ∀ (operator : Operator) (children : List NodeId) (parent : NodeId),
    relates (.operation operator.symbol (first.rank operator) children parent)
      (.operation operator.symbol (second.rank operator) children parent)
  call : ∀ (name : String) (children : List NodeId) (parent : NodeId),
    relates (.operation name first.functionRank children parent)
      (.operation name second.functionRank children parent)

theorem Node.corresponds_self (precedence : Precedence) :
    Corresponds (fun node other => id node = id other) precedence precedence :=
  ⟨fun _ => rfl, fun _ _ _ => rfl, fun _ _ _ => rfl, fun _ _ _ => rfl⟩

theorem Node.corresponds_unranked (first second : Precedence) :
    Corresponds (fun node other => node.unranked = other.unranked) first second := by
  constructor <;> intros <;> simp [unranked, operation, Attributes.erase]

/-- A node has one attribute at most, so the keys are sorted. -/
theorem Node.corresponds_byKey (precedence : Precedence) :
    Corresponds (fun node _ => node.attributes.byKey = node.attributes) precedence precedence :=
  ⟨fun _ => Attributes.byKey_nil, fun _ _ _ => Attributes.byKey_nil,
    fun _ _ _ => Attributes.byKey_singleton _, fun _ _ _ => Attributes.byKey_singleton _⟩

namespace Tree

section Determined

variable {relates : Node → Node → Prop} {first second : Precedence} {tree other : Tree}

mutual

/-- Two trees that hold the same expression have corresponding nodes there. -/
theorem Holds.correspond {parent start id : Nat} {expression : Expression}
    (corresponds : Node.Corresponds relates first second)
    (held : tree.Holds first parent start expression)
    (otherHeld : other.Holds second parent start expression)
    (lower : start ≤ id) (upper : id < start + expression.size) :
    ∃ node counterpart, tree.get? id = some node ∧ other.get? id = some counterpart ∧
      relates node counterpart := by
  cases expression with
  | number text | symbol text =>
      obtain rfl : id = start := by
        rw [Expression.size] at upper
        omega
      exact ⟨_, _, held, otherHeld, corresponds.leaf ..⟩
  | operator operator left right =>
      obtain ⟨node, heldLeft, heldRight⟩ := held
      obtain ⟨otherNode, otherLeft, otherRight⟩ := otherHeld
      rw [Expression.size] at upper
      rcases Nat.lt_trichotomy id (start + left.size) with inLeft | rfl | inRight
      · exact heldLeft.correspond corresponds otherLeft lower inLeft
      · exact ⟨_, _, node, otherNode, corresponds.operator ..⟩
      · exact heldRight.correspond corresponds otherRight (by omega) (by omega)
  | call name arguments =>
      obtain ⟨node, heldAll⟩ := held
      obtain ⟨otherNode, otherAll⟩ := otherHeld
      rw [Expression.size] at upper
      rcases Nat.eq_or_lt_of_le lower with rfl | inside
      · exact ⟨_, _, node, otherNode, corresponds.call ..⟩
      · exact heldAll.correspond corresponds otherAll (by omega) (by omega)

theorem HoldsAll.correspond {parent start id : Nat} {expressions : List Expression}
    (corresponds : Node.Corresponds relates first second)
    (held : tree.HoldsAll first parent start expressions)
    (otherHeld : other.HoldsAll second parent start expressions)
    (lower : start ≤ id) (upper : id < start + Expression.sizeAll expressions) :
    ∃ node counterpart, tree.get? id = some node ∧ other.get? id = some counterpart ∧
      relates node counterpart := by
  cases expressions with
  | nil =>
      rw [Expression.sizeAll] at upper
      omega
  | cons expression rest =>
      obtain ⟨heldFirst, heldRest⟩ := held
      obtain ⟨otherFirst, otherRest⟩ := otherHeld
      rw [Expression.sizeAll] at upper
      rcases Nat.lt_or_ge id (start + expression.size) with inFirst | behind
      · exact heldFirst.correspond corresponds otherFirst lower inFirst
      · exact heldRest.correspond corresponds otherRest behind (by omega)

end

theorem Fills.correspond {expression : Expression} {id : NodeId}
    (corresponds : Node.Corresponds relates first second)
    (filled : tree.Fills first .whole expression)
    (otherFilled : other.Fills second .whole expression) (inside : id < tree.size) :
    ∃ node counterpart, tree.get? id = some node ∧ other.get? id = some counterpart ∧
      relates node counterpart := by
  rcases Nat.eq_zero_or_pos id with rfl | positive
  · exact ⟨_, _, filled.around, otherFilled.around, corresponds.root _⟩
  · have bound : id < 1 + expression.size := Nat.lt_of_lt_of_eq inside filled.size
    exact filled.inside.correspond corresponds otherFilled.inside positive bound

/-- The attributes of a complete tree are sorted by key. -/
theorem Fills.byKey_attributes {expression : Expression} {id : NodeId} {node : Node}
    (filled : tree.Fills first .whole expression) (found : tree.get? id = some node) :
    node.attributes.byKey = node.attributes := by
  obtain ⟨inside, -⟩ := Array.getElem?_eq_some_iff.mp found
  obtain ⟨_, _, stored, -, sorted⟩ :=
    filled.correspond (Node.corresponds_byKey first) filled inside
  obtain rfl := Option.some.inj (found.symm.trans stored)
  exact sorted

/-- Two trees that are filled by the same expression look the same. -/
theorem Fills.map_nodes {Shown : Type} {view : Node → Shown} {expression : Expression}
    (corresponds : Node.Corresponds (fun node other => view node = view other) first second)
    (filled : tree.Fills first .whole expression)
    (otherFilled : other.Fills second .whole expression) :
    tree.nodes.map view = other.nodes.map view := by
  apply Array.ext_getElem?
  intro id
  rw [Array.getElem?_map, Array.getElem?_map]
  have sameSize : tree.nodes.size = other.nodes.size := filled.size.trans otherFilled.size.symm
  rcases Nat.lt_or_ge id tree.nodes.size with inside | outside
  · obtain ⟨node, counterpart, found, otherFound, same⟩ :=
      filled.correspond corresponds otherFilled inside
    rw [show tree.nodes[id]? = _ from found, show other.nodes[id]? = _ from otherFound,
      Option.map_some, Option.map_some, same]
  · rw [Array.getElem?_eq_none outside, Array.getElem?_eq_none (sameSize ▸ outside)]

/-- A tree is fixed by its expression. -/
theorem Fills.unique {precedence : Precedence} {expression : Expression}
    (filled : tree.Fills precedence .whole expression)
    (otherFilled : other.Fills precedence .whole expression) : tree = other := by
  have same := filled.map_nodes (Node.corresponds_self precedence) otherFilled
  rw [Array.map_id, Array.map_id] at same
  cases tree
  cases other
  exact congrArg Tree.mk same

end Determined

section Readable

variable {first second : Precedence} {tree other : Tree}

/-- A node keeps its kind, its text and its children without its rank. -/
theorem unranked_get? {id : Nat} {node otherNode : Node}
    (same : tree.unranked = other.unranked) (found : tree.get? id = some node)
    (otherFound : other.get? id = some otherNode) :
    node.kind = otherNode.kind ∧ node.text = otherNode.text ∧
      node.children = otherNode.children := by
  have shown := congrArg (fun shown : Tree => shown.nodes[id]?) same
  simp only [unranked, Array.getElem?_map] at shown
  rw [show tree.nodes[id]? = _ from found, show other.nodes[id]? = _ from otherFound,
    Option.map_some, Option.map_some, Option.some.injEq] at shown
  have kinds := congrArg Node.kind shown
  have texts := congrArg Node.text shown
  have children := congrArg Node.children shown
  exact ⟨kinds, texts, children⟩

mutual

/-- An expression can be read from the nodes that hold it. -/
theorem Holds.expression_eq {parent otherParent start : Nat} {expression read : Expression}
    (same : tree.unranked = other.unranked)
    (held : tree.Holds first parent start expression)
    (otherHeld : other.Holds second otherParent start read)
    (top : expression.top start = read.top start) : expression = read := by
  cases expression with
  | number text =>
      cases read with
      | number other =>
          obtain ⟨-, texts, -⟩ := unranked_get? same held otherHeld
          rw [show text = other from texts]
      | symbol other => simpa using (unranked_get? same held otherHeld).1
      | operator sign left right =>
          have positive := left.size_pos
          simp only [Expression.top] at top
          omega
      | call name arguments => simpa [Node.operation] using (unranked_get? same held otherHeld.1).1
  | symbol text =>
      cases read with
      | number other => simpa using (unranked_get? same held otherHeld).1
      | symbol other =>
          obtain ⟨-, texts, -⟩ := unranked_get? same held otherHeld
          rw [show text = other from texts]
      | operator sign left right =>
          have positive := left.size_pos
          simp only [Expression.top] at top
          omega
      | call name arguments => simpa [Node.operation] using (unranked_get? same held otherHeld.1).1
  | operator sign left right =>
      have positive := left.size_pos
      cases read with
      | number other =>
          simp only [Expression.top] at top
          omega
      | symbol other =>
          simp only [Expression.top] at top
          omega
      | call name arguments =>
          simp only [Expression.top] at top
          omega
      | operator other otherLeft otherRight =>
          simp only [Expression.top, Nat.add_left_cancel_iff] at top
          obtain ⟨node, heldLeft, heldRight⟩ := held
          obtain ⟨otherNode, heldOtherLeft, heldOtherRight⟩ := otherHeld
          rw [← top] at otherNode heldOtherRight
          obtain ⟨-, texts, children⟩ := unranked_get? same node otherNode
          simp only [Node.operation, List.cons.injEq, and_true] at texts children
          rw [Operator.symbol_injective texts,
            heldLeft.expression_eq same heldOtherLeft children.1,
            heldRight.expression_eq same heldOtherRight children.2]
  | call name arguments =>
      cases read with
      | number other => simpa [Node.operation] using (unranked_get? same held.1 otherHeld).1
      | symbol other => simpa [Node.operation] using (unranked_get? same held.1 otherHeld).1
      | operator sign left right =>
          have positive := left.size_pos
          simp only [Expression.top] at top
          omega
      | call other others =>
          obtain ⟨node, heldAll⟩ := held
          obtain ⟨otherNode, otherAll⟩ := otherHeld
          obtain ⟨-, texts, children⟩ := unranked_get? same node otherNode
          simp only [Node.operation] at texts children
          rw [texts, heldAll.expressions_eq same otherAll children]

theorem HoldsAll.expressions_eq {parent otherParent start : Nat}
    {expressions reads : List Expression} (same : tree.unranked = other.unranked)
    (held : tree.HoldsAll first parent start expressions)
    (otherHeld : other.HoldsAll second otherParent start reads)
    (tops : Expression.tops start expressions = Expression.tops start reads) :
    expressions = reads := by
  cases expressions with
  | nil =>
      cases reads with
      | nil => rfl
      | cons read rest => simp [Expression.tops] at tops
  | cons expression rest =>
      cases reads with
      | nil => simp [Expression.tops] at tops
      | cons read others =>
          obtain ⟨heldFirst, heldRest⟩ := held
          obtain ⟨otherFirst, otherRest⟩ := otherHeld
          simp only [Expression.tops, List.cons.injEq] at tops
          obtain rfl := heldFirst.expression_eq same otherFirst tops.1
          rw [heldRest.expressions_eq same otherRest tops.2]

end

/-- Without their ranks two filled trees are the same exactly when their expressions are. -/
theorem unranked_eq_iff {expression read : Expression}
    (filled : tree.Fills first .whole expression) (otherFilled : other.Fills second .whole read) :
    tree.unranked = other.unranked ↔ expression = read := by
  constructor
  · intro same
    have children := (unranked_get? same filled.around otherFilled.around).2.2
    simp only [List.cons.injEq, and_true] at children
    exact filled.inside.expression_eq same otherFilled.inside children
  · rintro rfl
    rw [unranked, unranked, filled.map_nodes (Node.corresponds_unranked first second) otherFilled]

end Readable

end Tree

end GlslFormula
