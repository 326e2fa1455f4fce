import GlslFormula.Proofs.Context

namespace GlslFormula.Tree

@[simp] theorem size_create (tree : Tree) (kind : NodeKind) (text : String) :
    (tree.create kind text).size = tree.size + 1 := by
  simp [create, size]

@[simp] theorem size_modify (tree : Tree) (id : Nat) (change : Node → Node) :
    (tree.modify id change).size = tree.size := by
  simp [modify, size]

theorem get?_create (tree : Tree) (kind : NodeKind) (text : String) (id : Nat) :
    (tree.create kind text).get? id =
      if id = tree.size then some { kind, text } else tree.get? id := by
  simp only [create, get?, Array.getElem?_push]
  rfl

theorem get?_modify (tree : Tree) (changed id : Nat) (change : Node → Node) :
    (tree.modify changed change).get? id =
      if changed = id then (tree.get? id).map change else tree.get? id := by
  simp only [modify, get?, Array.getElem?_modify]

theorem get?_modify_self (tree : Tree) (id : Nat) (change : Node → Node) :
    (tree.modify id change).get? id = (tree.get? id).map change := by
  rw [get?_modify, if_pos rfl]

theorem get?_modify_ne {tree : Tree} {changed id : Nat} {change : Node → Node}
    (different : changed ≠ id) : (tree.modify changed change).get? id = tree.get? id := by
  rw [get?_modify, if_neg different]

/-- A change that keeps the parent of a node keeps all parents. -/
theorem parent?_modify {tree : Tree} {changed : Nat} {change : Node → Node}
    (kept : ∀ node, (change node).parent = node.parent) (id : Nat) :
    (tree.modify changed change).parent? id = tree.parent? id := by
  rw [parent?, parent?, get?_modify]
  split
  · cases tree.get? id with
    | none => rfl
    | some node => exact kept node
  · rfl

/-- The tree has one more operation, which has its rank and no place yet. -/
def newOperation (tree : Tree) (text : String) (rank : Nat) : Tree :=
  (tree.create .operation text).modify tree.size fun node =>
    { node with attributes := node.attributes.insert precedenceAttribute (toString rank) }

theorem applyAll_newOperation (tree : Tree) (text : String) (rank : Nat) (edits : List Edit) :
    tree.applyAll (.create .operation text ::
        .setAttribute tree.size precedenceAttribute (toString rank) :: edits) =
      (tree.newOperation text rank).applyAll edits := by
  have found : (tree.create .operation text).get? tree.size =
      some { kind := .operation, text } := by
    rw [get?_create, if_pos rfl]
  simp [applyAll, applyOrKeep, apply, perform, setAttribute, Tree.node, found, Except.map, bind,
    Except.bind, pure, Except.pure, newOperation]

@[simp] theorem size_newOperation (tree : Tree) (text : String) (rank : Nat) :
    (tree.newOperation text rank).size = tree.size + 1 := by
  simp [newOperation]

theorem get?_newOperation_self (tree : Tree) (text : String) (rank : Nat) :
    (tree.newOperation text rank).get? tree.size =
      some { kind := .operation, text, attributes := [(precedenceAttribute, toString rank)] } := by
  rw [newOperation, get?_modify_self, get?_create, if_pos rfl]
  rfl

theorem get?_newOperation_ne {tree : Tree} {text : String} {rank id : Nat}
    (different : id ≠ tree.size) : (tree.newOperation text rank).get? id = tree.get? id := by
  rw [newOperation, get?_modify_ne (Ne.symm different), get?_create, if_neg different]

/-- A node without a parent is appended with two changes. -/
theorem append_orphan {tree : Tree} {parent child : Nat} {owner node : Node}
    (different : parent ≠ child) (ownerFound : tree.get? parent = some owner)
    (found : tree.get? child = some node) (orphan : node.parent = none)
    (below : tree.isAncestor child parent = false) :
    tree.append parent child =
      .ok ((tree.modify child fun node => { node with parent := some parent }).modify parent
        fun node => { node with children := node.children ++ [child] }) := by
  simp [append, adopt, Tree.node, different, ownerFound, found, orphan, below, bind, Except.bind,
    pure, Except.pure]

/-- The node `above` stands in the place of `id`, and `id` has no parent yet. -/
def displace (tree : Tree) (parent id above : Nat) : Tree :=
  ((tree.modify parent fun node =>
    { node with children := node.children.replace id above }).modify above fun node =>
      { node with parent := some parent }).modify id fun node => { node with parent := none }

/-- A node without a parent is inserted by an exchange and an append. -/
theorem insertAbove_orphan {tree : Tree} {parent id above : Nat} {owner node raised : Node}
    (found : tree.get? id = some node) (linked : node.parent = some parent)
    (ownerFound : tree.get? parent = some owner) (member : id ∈ owner.children)
    (raisedFound : tree.get? above = some raised) (orphan : raised.parent = none) :
    tree.insertAbove id above = (tree.displace parent id above).append above id := by
  have inside : id ∈ tree.children parent := by
    rw [children, ownerFound]
    exact member
  simp [insertAbove, Tree.node, found, linked, raisedFound, orphan, inside, bind, Except.bind,
    displace]

/-- A node that was just created hangs below the innermost node of the context. -/
theorem Awaits.append {precedence : Precedence} {tree extended : Tree} {context : Context}
    {fresh : Node} (awaits : tree.Awaits precedence context)
    (same : ∀ id : Nat, id ≠ tree.size → extended.get? id = tree.get? id)
    (last : extended.get? tree.size = some fresh) (orphan : fresh.parent = none) :
    ∃ placed, extended.append context.node tree.size = .ok placed ∧
      placed.Surrounds precedence context [context.next] ∧
      placed.get? context.next = some { fresh with parent := some context.node } ∧
      placed.size = extended.size := by
  obtain ⟨around, size⟩ := awaits
  rw [size] at same last ⊢
  have inside := context.node_lt_next
  obtain ⟨owner, earlier, ownerFound, _⟩ := around.children_node
  have kept : extended.get? context.node = some owner :=
    (same context.node (by omega)).trans ownerFound
  have sameParent : ∀ id : Nat, id < context.next → extended.parent? id = tree.parent? id := by
    intro id bound
    rw [parent?, parent?, same id (by omega)]
  have below : extended.isAncestor context.next context.node = false := by
    have path := around.isOnPath_eq_false (Nat.le_refl _) sameParent (extended.size + 1)
    rwa [isOnPath, if_neg (show context.node ≠ context.next by omega)] at path
  refine ⟨_, append_orphan (by omega) kept last orphan below, ?_, ?_, by simp⟩
  · apply around.refill (fun children => children ++ [context.next])
    · rw [get?_modify_self, get?_modify_ne (by omega), same _ (by omega)]
    · intro id bound different
      rw [get?_modify_ne (Ne.symm different), get?_modify_ne (by omega), same _ (by omega)]
    · intro earlier _
      rw [List.append_nil]
  · rw [get?_modify_ne (by omega), get?_modify_self, last]
    rfl

/-- A node that was just created takes the place of the value that was read last. -/
theorem Fills.insertAbove {precedence : Precedence} {tree extended : Tree} {context : Context}
    {value : Expression} {fresh : Node} (filled : tree.Fills precedence context value)
    (same : ∀ id : Nat, id ≠ tree.size → extended.get? id = tree.get? id)
    (last : extended.get? tree.size = some fresh) (orphan : fresh.parent = none)
    (childless : fresh.children = []) :
    ∃ placed, extended.insertAbove (value.top context.next) tree.size = .ok placed ∧
      placed.Surrounds precedence context [context.next + value.size] ∧
      placed.Holds precedence (context.next + value.size) context.next value ∧
      placed.get? (context.next + value.size) =
        some { fresh with children := [value.top context.next], parent := some context.node } ∧
      placed.size = extended.size := by
  obtain ⟨around, inside, size⟩ := filled
  rw [size] at same last ⊢
  have nodeBound := context.node_lt_next
  have topLower := value.le_top context.next
  have topUpper := value.top_lt context.next
  obtain ⟨owner, earlier, ownerFound, ownerChildren, early⟩ := around.children_node
  obtain ⟨node, found, linked⟩ := inside.parent_top
  have member : value.top context.next ∈ owner.children := by
    rw [ownerChildren]
    simp
  have exchanged := insertAbove_orphan
    ((same (value.top context.next) (by omega)).trans found) linked
    ((same context.node (by omega)).trans ownerFound) member last orphan
  have raised : (extended.displace context.node (value.top context.next)
      (context.next + value.size)).get? (context.next + value.size) =
        some { fresh with parent := some context.node } := by
    rw [displace, get?_modify_ne (by omega), get?_modify_self, get?_modify_ne (by omega), last]
    rfl
  have loose : (extended.displace context.node (value.top context.next)
      (context.next + value.size)).get? (value.top context.next) =
        some { node with parent := none } := by
    rw [displace, get?_modify_self, get?_modify_ne (by omega), get?_modify_ne (by omega),
      same _ (by omega), found]
    rfl
  have sameParent : ∀ id : Nat, id < context.next →
      (extended.displace context.node (value.top context.next)
        (context.next + value.size)).parent? id = tree.parent? id := by
    intro id bound
    rw [parent?, displace, get?_modify_ne (by omega), get?_modify_ne (by omega), ← parent?]
    refine (parent?_modify (by intro node; rfl) id).trans ?_
    rw [parent?, parent?, same id (by omega)]
  have below : (extended.displace context.node (value.top context.next)
      (context.next + value.size)).isAncestor (value.top context.next)
        (context.next + value.size) = false := by
    rw [isAncestor, parent?, raised]
    exact around.isOnPath_eq_false topLower sameParent _
  rw [exchanged]
  refine ⟨_, append_orphan (by omega) raised loose rfl below, ?_, ?_, ?_, by simp [displace]⟩
  · apply around.refill
      (fun children => children.replace (value.top context.next) (context.next + value.size))
    · rw [get?_modify_ne (by omega), get?_modify_ne (by omega), displace,
        get?_modify_ne (by omega), get?_modify_ne (by omega), get?_modify_self, same _ (by omega)]
    · intro id bound different
      rw [get?_modify_ne (by omega), get?_modify_ne (by omega), displace,
        get?_modify_ne (by omega), get?_modify_ne (by omega), get?_modify_ne (Ne.symm different),
        same _ (by omega)]
    · intro earlier bounds
      have absent : value.top context.next ∉ earlier := by
        intro present
        have bound := bounds _ present
        omega
      simp [List.replace_append_right absent]
  · apply inside.reparent
    · rw [get?_modify_ne (by omega), get?_modify_self, loose, found]
      rfl
    · intro id lower upper different
      rw [get?_modify_ne (by omega), get?_modify_ne (Ne.symm different), displace,
        get?_modify_ne (Ne.symm different), get?_modify_ne (by omega), get?_modify_ne (by omega),
        same _ (by omega)]
  · rw [get?_modify_self, get?_modify_ne (by omega), raised]
    simp [childless]

end GlslFormula.Tree
