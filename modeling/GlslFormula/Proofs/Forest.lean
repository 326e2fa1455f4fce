/-
This file keeps the two kinds of links together. In a linked tree each child list holds exactly the
nodes with that parent, each of them once, and each way up ends. Edits keep a tree linked, as long
as no node is inserted above one of its own descendants.
-/
import GlslFormula.Proofs.Ancestry
import GlslFormula.Proofs.Placement

namespace GlslFormula.Tree

/-- Both kinds of links say the same, and no link closes a cycle. -/
structure Linked (tree : Tree) : Prop where
  agree : ∀ parent child, child ∈ tree.children parent ↔ tree.parent? child = some parent
  nodup : ∀ parent, (tree.children parent).Nodup
  rises : ∀ id, ∃ path, tree.Path id path

def setParent (tree : Tree) (id : NodeId) (parent : Option NodeId) : Tree :=
  tree.modify id fun node => { node with parent := parent }

def setChildren (tree : Tree) (id : NodeId) (change : List NodeId → List NodeId) : Tree :=
  tree.modify id fun node => { node with children := change node.children }

/-- The node leaves its parent, if it has one. -/
def release (tree : Tree) (id : NodeId) : Tree :=
  match tree.parent? id with
  | some old => tree.detach old id
  | none => tree

/-- The child leaves its old parent and is placed among the children of the new one. -/
def attach (tree : Tree) (parent child : NodeId) (place : List NodeId → List NodeId) : Tree :=
  ((tree.release child).setParent child (some parent)).setChildren parent place

section Views

variable {tree : Tree} {id each : NodeId}

theorem get?_eq_some_iff_lt (tree : Tree) (id : NodeId) :
    (∃ node, tree.get? id = some node) ↔ id < tree.size := by
  rw [← Option.isSome_iff_exists]
  simp [get?, size]

theorem lt_size_of_mem_children {parent child : NodeId} (member : child ∈ tree.children parent) :
    parent < tree.size := by
  rw [children] at member
  cases found : tree.get? parent with
  | none => simp [found] at member
  | some node => exact (get?_eq_some_iff_lt tree parent).mp ⟨node, found⟩

theorem lt_size_of_parent? {parent child : NodeId} (linked : tree.parent? child = some parent) :
    child < tree.size := by
  rw [parent?] at linked
  obtain ⟨node, found, -⟩ := Option.bind_eq_some_iff.mp linked
  exact (get?_eq_some_iff_lt tree child).mp ⟨node, found⟩

/-- A change that keeps the children of a node keeps all child lists. -/
theorem children_modify {changed : NodeId} {change : Node → Node}
    (kept : ∀ node, (change node).children = node.children) (id : NodeId) :
    (tree.modify changed change).children id = tree.children id := by
  rw [children, children, get?_modify]
  by_cases same : changed = id
  · rw [if_pos same]
    cases tree.get? id with
    | none => rfl
    | some node => exact kept node
  · rw [if_neg same]

@[simp] theorem size_setParent (parent : Option NodeId) :
    (tree.setParent id parent).size = tree.size := size_modify ..

@[simp] theorem size_setChildren (change : List NodeId → List NodeId) :
    (tree.setChildren id change).size = tree.size := size_modify ..

@[simp] theorem children_setParent (parent : Option NodeId) :
    (tree.setParent id parent).children each = tree.children each := by
  unfold setParent
  exact children_modify (by intro node; rfl) each

@[simp] theorem parent?_setChildren (change : List NodeId → List NodeId) :
    (tree.setChildren id change).parent? each = tree.parent? each := by
  unfold setChildren
  exact parent?_modify (by intro node; rfl) each

theorem parent?_setParent (inside : id < tree.size) (parent : Option NodeId) :
    (tree.setParent id parent).parent? each = if each = id then parent else tree.parent? each := by
  rw [setParent, parent?, parent?, get?_modify]
  obtain ⟨node, found⟩ := (get?_eq_some_iff_lt tree id).mpr inside
  by_cases same : each = id
  · rw [if_pos same.symm, if_pos same, same, found]
    rfl
  · rw [if_neg (Ne.symm same), if_neg same]

theorem children_setChildren (inside : id < tree.size) (change : List NodeId → List NodeId) :
    (tree.setChildren id change).children each =
      if each = id then change (tree.children id) else tree.children each := by
  rw [setChildren, children, children, children, get?_modify]
  obtain ⟨node, found⟩ := (get?_eq_some_iff_lt tree id).mpr inside
  by_cases same : each = id
  · rw [if_pos same.symm, if_pos same, same, found]
    rfl
  · rw [if_neg (Ne.symm same), if_neg same]

/-- The new node has no links, like the missing node before it. -/
theorem parent?_create (tree : Tree) (kind : NodeKind) (text : String) (id : NodeId) :
    (tree.create kind text).parent? id = tree.parent? id := by
  rw [parent?, parent?, get?_create]
  by_cases last : id = tree.size
  · simp [last, get?, size]
  · rw [if_neg last]

theorem children_create (tree : Tree) (kind : NodeKind) (text : String) (id : NodeId) :
    (tree.create kind text).children id = tree.children id := by
  rw [children, children, get?_create]
  by_cases last : id = tree.size
  · simp [last, get?, size]
  · rw [if_neg last]

theorem detach_eq {parent child : NodeId} (member : child ∈ tree.children parent) :
    tree.detach parent child =
      (tree.setChildren parent fun children => children.erase child).setParent child none := by
  rw [detach, if_pos member]
  rfl

@[simp] theorem size_release : (tree.release id).size = tree.size := by
  unfold release
  split
  · unfold detach
    split <;> simp
  · rfl

@[simp] theorem size_attach (parent child : NodeId) (place : List NodeId → List NodeId) :
    (tree.attach parent child place).size = tree.size := by
  simp [attach]

end Views

namespace Linked

variable {tree changed edited : Tree} {id parent child : NodeId}

/-- Only the links count. -/
theorem congr (linked : tree.Linked) (children : ∀ id, changed.children id = tree.children id)
    (parents : ∀ id, changed.parent? id = tree.parent? id) : changed.Linked where
  agree parent child := by rw [children, parents, linked.agree]
  nodup parent := by rw [children]; exact linked.nodup parent
  rises id := by
    obtain ⟨path, rises⟩ := linked.rises id
    exact ⟨path, rises.congr fun each _ => parents each⟩

theorem empty : Tree.empty.Linked := by
  have single (id : NodeId) :
      Tree.empty.children id = [] ∧ Tree.empty.parent? id = none := by
    cases id <;> exact ⟨rfl, rfl⟩
  constructor
  · intro parent child
    simp [single]
  · intro parent
    simp [single]
  · intro id
    exact ⟨[id], .top (single id).2⟩

theorem lt_size (linked : tree.Linked) (above : tree.parent? child = some parent) :
    parent < tree.size :=
  lt_size_of_mem_children ((linked.agree parent child).mpr above)

theorem parent?_release (linked : tree.Linked) (each : NodeId) :
    (tree.release id).parent? each = if each = id then none else tree.parent? each := by
  unfold release
  cases above : tree.parent? id with
  | none =>
      by_cases same : each = id
      · rw [if_pos same, same]
        exact above
      · rw [if_neg same]
  | some old =>
      have member := (linked.agree old id).mpr above
      show (tree.detach old id).parent? each = _
      rw [detach_eq member, parent?_setParent (by simpa using lt_size_of_parent? above),
        parent?_setChildren]

theorem children_release (linked : tree.Linked) (each : NodeId) :
    (tree.release id).children each = (tree.children each).erase id := by
  have absent (other : NodeId) (different : tree.parent? id ≠ some other) :
      (tree.children other).erase id = tree.children other := by
    apply List.erase_of_not_mem
    intro member
    exact different ((linked.agree other id).mp member)
  unfold release
  cases above : tree.parent? id with
  | none => rw [absent each (by simp [above])]
  | some old =>
      have member := (linked.agree old id).mpr above
      show (tree.detach old id).children each = _
      rw [detach_eq member, children_setParent,
        children_setChildren (lt_size_of_mem_children member)]
      by_cases same : each = old
      · rw [if_pos same, same]
      · rw [if_neg same, absent each (by simpa [above] using Ne.symm same)]

/-- A node without a parent is free already. -/
theorem mem_erase_iff (linked : tree.Linked) (parent each : NodeId) :
    each ∈ (tree.children parent).erase id ↔ each ≠ id ∧ tree.parent? each = some parent := by
  rw [(linked.nodup parent).mem_erase_iff, linked.agree]

theorem release (linked : tree.Linked) (id : NodeId) : (tree.release id).Linked where
  agree parent child := by
    rw [linked.children_release, linked.parent?_release, linked.mem_erase_iff]
    split <;> simp_all
  nodup parent := by
    rw [linked.children_release]
    exact (linked.nodup parent).erase id
  rises each := by
    obtain ⟨path, rises⟩ := linked.rises each
    have same (other : NodeId) (different : other ≠ id) :
        (tree.release id).parent? other = tree.parent? other := by
      rw [linked.parent?_release, if_neg different]
    have orphan : (tree.release id).parent? id = none := by
      rw [linked.parent?_release, if_pos rfl]
    exact rises.reroute same (.top orphan)

theorem parent?_attach (linked : tree.Linked) (inside : child < tree.size)
    (place : List NodeId → List NodeId) (each : NodeId) :
    (tree.attach parent child place).parent? each =
      if each = child then some parent else tree.parent? each := by
  rw [attach, parent?_setChildren, parent?_setParent (by simpa using inside),
    linked.parent?_release]
  by_cases same : each = child
  · rw [if_pos same, if_pos same]
  · rw [if_neg same, if_neg same, if_neg same]

theorem children_attach (linked : tree.Linked) (inside : parent < tree.size)
    (place : List NodeId → List NodeId) (each : NodeId) :
    (tree.attach parent child place).children each =
      if each = parent then place ((tree.children parent).erase child)
      else (tree.children each).erase child := by
  rw [attach, children_setChildren (by simpa using inside), children_setParent,
    children_setParent, linked.children_release, linked.children_release]

/-- A node that is not above its new parent closes no cycle. -/
theorem attach (linked : tree.Linked) (childInside : child < tree.size)
    (parentInside : parent < tree.size) {place : List NodeId → List NodeId}
    (apart : ∀ path, tree.Path parent path → child ∉ path)
    (placed : (place ((tree.children parent).erase child)).Perm
      (child :: (tree.children parent).erase child)) :
    (tree.attach parent child place).Linked := by
  have parents : ∀ each, (tree.attach parent child place).parent? each =
      if each = child then some parent else tree.parent? each :=
    linked.parent?_attach childInside place
  have children : ∀ each, (tree.attach parent child place).children each =
      if each = parent then place ((tree.children parent).erase child)
      else (tree.children each).erase child :=
    linked.children_attach parentInside place
  constructor
  · intro owner each
    rw [children, parents]
    by_cases atParent : owner = parent
    · rw [if_pos atParent, placed.mem_iff, List.mem_cons, linked.mem_erase_iff, atParent]
      by_cases same : each = child <;> simp [same]
    · rw [if_neg atParent, linked.mem_erase_iff]
      by_cases same : each = child
      · simpa [same] using Ne.symm atParent
      · simp [same]
  · intro owner
    rw [children]
    by_cases atParent : owner = parent
    · rw [if_pos atParent, placed.nodup_iff, List.nodup_cons]
      refine ⟨?_, (linked.nodup parent).erase child⟩
      rw [linked.mem_erase_iff]
      simp
    · rw [if_neg atParent]
      exact (linked.nodup owner).erase child
  · intro each
    have same (other : NodeId) (different : other ≠ child) :
        (tree.attach parent child place).parent? other = tree.parent? other := by
      rw [parents, if_neg different]
    obtain ⟨path, rises⟩ := linked.rises each
    obtain ⟨above, higher⟩ := linked.rises parent
    have parentPath : (tree.attach parent child place).Path parent above := by
      apply higher.congr
      intro other member
      apply same
      rintro rfl
      exact apart above higher member
    have moved : (tree.attach parent child place).parent? child = some parent := by
      rw [parents, if_pos rfl]
    exact rises.reroute same (.step moved parentPath)

end Linked

section Outcomes

variable {tree edited : Tree} {id above parent child : NodeId}

theorem parent?_of_get? {node : Node} (found : tree.get? id = some node) :
    tree.parent? id = node.parent := by
  rw [parent?, found]
  rfl

theorem node_of_get? {node : Node} (found : tree.get? id = some node) :
    tree.node id = .ok node := by
  rw [Tree.node, found]

theorem node_of_not_lt (missing : ¬ id < tree.size) :
    tree.node id = .error (.missingNode id) := by
  have absent : tree.get? id = none := by
    rw [← get?_eq_some_iff_lt] at missing
    exact Option.eq_none_iff_forall_ne_some.mpr fun node found => missing ⟨node, found⟩
  rw [Tree.node, absent]

/-- These are the checks before a node gets a new parent. -/
theorem adopt_ok_iff :
    tree.adopt parent child = .ok edited ↔
      parent ≠ child ∧ parent < tree.size ∧ tree.isAncestor child parent = false ∧
        child < tree.size ∧ (tree.release child).setParent child (some parent) = edited := by
  unfold adopt
  by_cases same : parent = child
  · simp [same, bind, Except.bind, throw, throwThe, MonadExceptOf.throw]
  · by_cases parentInside : parent < tree.size
    · obtain ⟨owner, ownerFound⟩ := (get?_eq_some_iff_lt tree parent).mpr parentInside
      by_cases higher : tree.isAncestor child parent = true
      · simp [same, node_of_get? ownerFound, higher, bind, Except.bind, throw, throwThe,
          MonadExceptOf.throw]
      · by_cases childInside : child < tree.size
        · obtain ⟨node, found⟩ := (get?_eq_some_iff_lt tree child).mpr childInside
          have above := parent?_of_get? found
          cases link : node.parent <;> rw [link] at above <;>
            simp [same, node_of_get? ownerFound, higher, node_of_get? found, parentInside,
              childInside, release, above, link, setParent, bind, Except.bind, pure, Except.pure]
        · simp [same, node_of_get? ownerFound, higher, node_of_not_lt childInside, childInside,
            bind, Except.bind]
    · simp [same, node_of_not_lt parentInside, parentInside, bind, Except.bind]

theorem adopt_bind_ok_iff (place : List NodeId → List NodeId) :
    ((tree.adopt parent child).bind fun adopted => .ok (adopted.setChildren parent place)) =
        .ok edited ↔
      parent ≠ child ∧ parent < tree.size ∧ tree.isAncestor child parent = false ∧
        child < tree.size ∧ tree.attach parent child place = edited := by
  constructor
  · intro success
    cases result : tree.adopt parent child with
    | error fault => simp [result, Except.bind] at success
    | ok adopted =>
        obtain ⟨different, parentInside, below, childInside, rfl⟩ := adopt_ok_iff.mp result
        rw [result] at success
        exact ⟨different, parentInside, below, childInside, Except.ok.inj success⟩
  · rintro ⟨different, parentInside, below, childInside, rfl⟩
    rw [adopt_ok_iff.mpr ⟨different, parentInside, below, childInside, rfl⟩]
    rfl

theorem append_ok_iff :
    tree.append parent child = .ok edited ↔
      parent ≠ child ∧ parent < tree.size ∧ tree.isAncestor child parent = false ∧
        child < tree.size ∧
        tree.attach parent child (fun children => children ++ [child]) = edited :=
  adopt_bind_ok_iff fun children => children ++ [child]

theorem prepend_ok_iff :
    tree.prepend parent child = .ok edited ↔
      parent ≠ child ∧ parent < tree.size ∧ tree.isAncestor child parent = false ∧
        child < tree.size ∧
        tree.attach parent child (fun children => child :: children) = edited :=
  adopt_bind_ok_iff fun children => child :: children

/-- An insertion frees the upper node, exchanges the two nodes and appends the lower one. -/
theorem insertAbove_eq (link : tree.parent? id = some parent) (inside : above < tree.size) :
    tree.insertAbove id above =
      if id ∈ (tree.release above).children parent then
        ((tree.release above).displace parent id above).append above id
      else .ok (tree.release above) := by
  obtain ⟨node, found⟩ := (get?_eq_some_iff_lt tree id).mpr (lt_size_of_parent? link)
  obtain ⟨raised, raisedFound⟩ := (get?_eq_some_iff_lt tree above).mpr inside
  have upper := parent?_of_get? raisedFound
  rw [parent?_of_get? found] at link
  cases old : raised.parent <;> rw [old] at upper <;>
    simp [insertAbove, node_of_get? found, link, node_of_get? raisedFound, old, release, upper,
      displace, bind, Except.bind, pure, Except.pure]

theorem insertAbove_ok_cases (success : tree.insertAbove id above = .ok edited) :
    (tree.parent? id = none ∧ edited = tree) ∨
      ∃ parent, tree.parent? id = some parent ∧ above < tree.size := by
  by_cases inside : id < tree.size
  · obtain ⟨node, found⟩ := (get?_eq_some_iff_lt tree id).mpr inside
    rw [parent?_of_get? found]
    cases link : node.parent with
    | none =>
        simp [insertAbove, node_of_get? found, link, bind, Except.bind, pure,
          Except.pure] at success
        exact .inl ⟨rfl, success.symm⟩
    | some parent =>
        refine .inr ⟨parent, rfl, ?_⟩
        by_contra missing
        simp [insertAbove, node_of_get? found, link, node_of_not_lt missing, bind,
          Except.bind] at success
  · simp [insertAbove, node_of_not_lt inside, bind, Except.bind] at success

theorem children_displace (inside : parent < tree.size) (each : NodeId) :
    (tree.displace parent id above).children each =
      if each = parent then (tree.children parent).replace id above else tree.children each := by
  show (((tree.setChildren parent fun children => children.replace id above).setParent above
    (some parent)).setParent id none).children each = _
  rw [children_setParent, children_setParent, children_setChildren inside]

theorem parent?_displace (inside : id < tree.size) (upperInside : above < tree.size)
    (each : NodeId) :
    (tree.displace parent id above).parent? each =
      if each = id then none else if each = above then some parent else tree.parent? each := by
  show (((tree.setChildren parent fun children => children.replace id above).setParent above
    (some parent)).setParent id none).parent? each = _
  rw [parent?_setParent (by simpa using inside), parent?_setParent (by simpa using upperInside),
    parent?_setChildren]

/-- The new node takes the place of the old one. -/
theorem perm_replace {children : List NodeId} (member : id ∈ children) :
    (children.replace id above).Perm (above :: children.erase id) := by
  induction children with
  | nil => simp at member
  | cons first rest inductionHypothesis =>
      by_cases same : first = id
      · simp [same]
      · have later : id ∈ rest := by
          rcases List.mem_cons.mp member with first | later
          · exact absurd first.symm same
          · exact later
        have other : (id == first) = false := by simpa using Ne.symm same
        rw [List.replace_cons, other, List.erase_cons_tail (by simpa using same)]
        exact ((inductionHypothesis later).cons first).trans (.swap ..)

theorem apply_append : tree.apply (.append parent child) = tree.append parent child := by
  rw [apply, perform]
  cases tree.append parent child <;> rfl

theorem apply_prepend : tree.apply (.prepend parent child) = tree.prepend parent child := by
  rw [apply, perform]
  cases tree.prepend parent child <;> rfl

theorem apply_insertAbove : tree.apply (.insertAbove id above) = tree.insertAbove id above := by
  rw [apply, perform]
  cases tree.insertAbove id above <;> rfl

/-- The other edits only need their first node. -/
theorem apply_remove_ok_iff :
    tree.apply (.remove parent child) = .ok edited ↔
      parent < tree.size ∧ tree.detach parent child = edited := by
  by_cases inside : parent < tree.size
  · obtain ⟨node, found⟩ := (get?_eq_some_iff_lt tree parent).mpr inside
    simp [apply, perform, remove, node_of_get? found, inside, bind, Except.bind, pure, Except.pure,
      Except.map]
  · simp [apply, perform, remove, node_of_not_lt inside, inside, bind, Except.bind, Except.map]

theorem apply_setAttribute_ok_iff {key value : String} :
    tree.apply (.setAttribute id key value) = .ok edited ↔
      id < tree.size ∧ (tree.modify id fun node =>
        { node with attributes := node.attributes.insert key value }) = edited := by
  by_cases inside : id < tree.size
  · obtain ⟨node, found⟩ := (get?_eq_some_iff_lt tree id).mpr inside
    simp [apply, perform, setAttribute, node_of_get? found, inside, bind, Except.bind, pure,
      Except.pure, Except.map]
  · simp [apply, perform, setAttribute, node_of_not_lt inside, inside, bind, Except.bind,
      Except.map]

theorem apply_removeAttribute_ok_iff {key : String} :
    tree.apply (.removeAttribute id key) = .ok edited ↔
      id < tree.size ∧ (tree.modify id fun node =>
        { node with attributes := node.attributes.erase key }) = edited := by
  by_cases inside : id < tree.size
  · obtain ⟨node, found⟩ := (get?_eq_some_iff_lt tree id).mpr inside
    simp [apply, perform, removeAttribute, node_of_get? found, inside, bind, Except.bind, pure,
      Except.pure, Except.map]
  · simp [apply, perform, removeAttribute, node_of_not_lt inside, inside, bind, Except.bind,
      Except.map]

end Outcomes

namespace Linked

variable {tree edited : Tree} {id above parent child ancestor : NodeId} {path : List NodeId}

theorem path_lt_size (linked : tree.Linked) (rises : tree.Path id path) (inside : id < tree.size) :
    ∀ each ∈ path, each < tree.size :=
  rises.lt_size inside fun _ _ link => linked.lt_size link

theorem tail_lt_size (linked : tree.Linked) (rises : tree.Path id path) :
    ∀ each ∈ path.tail, each < tree.size := by
  cases rises with
  | top orphan => simp
  | step link higher => exact linked.path_lt_size higher (linked.lt_size link)

/-- In a linked tree the search tells the ancestors of a node from all other nodes. -/
theorem isAncestor_iff (linked : tree.Linked) (rises : tree.Path id path) :
    tree.isAncestor ancestor id = true ↔ ancestor ∈ path.tail :=
  rises.isAncestor_iff (linked.tail_lt_size rises)

theorem create (linked : tree.Linked) (kind : NodeKind) (text : String) :
    (tree.create kind text).Linked :=
  linked.congr (children_create tree kind text) (parent?_create tree kind text)

/-- Attributes are no links. -/
theorem modify_attributes (linked : tree.Linked) (change : Attributes → Attributes) :
    (tree.modify id fun node => { node with attributes := change node.attributes }).Linked :=
  linked.congr (fun each => children_modify (by intro node; rfl) each)
    (fun each => parent?_modify (by intro node; rfl) each)

/-- A node that passed the search for a cycle can be placed among the children. -/
theorem attach_of_not_isAncestor (linked : tree.Linked) {place : List NodeId → List NodeId}
    (different : parent ≠ child) (parentInside : parent < tree.size)
    (below : tree.isAncestor child parent = false) (childInside : child < tree.size)
    (placed : ∀ children : List NodeId, (place children).Perm (child :: children)) :
    (tree.attach parent child place).Linked := by
  apply linked.attach childInside parentInside
  · intro path rises member
    obtain ⟨rest, rfl⟩ := rises.exists_cons
    rcases List.mem_cons.mp member with same | higher
    · exact different same.symm
    · have found := (linked.isAncestor_iff rises).mpr higher
      simp [below] at found
  · exact placed _

theorem append (linked : tree.Linked) (success : tree.append parent child = .ok edited) :
    edited.Linked := by
  obtain ⟨different, parentInside, below, childInside, rfl⟩ := append_ok_iff.mp success
  apply linked.attach_of_not_isAncestor different parentInside below childInside
  intro children
  exact List.perm_append_singleton child children

theorem prepend (linked : tree.Linked) (success : tree.prepend parent child = .ok edited) :
    edited.Linked := by
  obtain ⟨different, parentInside, below, childInside, rfl⟩ := prepend_ok_iff.mp success
  apply linked.attach_of_not_isAncestor different parentInside below childInside
  intro children
  exact List.Perm.refl _

/-- A child leaves its parent as a free node. -/
theorem detach (linked : tree.Linked) (parent child : NodeId) :
    (tree.detach parent child).Linked := by
  by_cases member : child ∈ tree.children parent
  · have freed : tree.release child = tree.detach parent child := by
      rw [Tree.release, (linked.agree parent child).mp member]
    rw [← freed]
    exact linked.release child
  · rw [Tree.detach, if_neg member]
    exact linked

/-- The path of the parent of a node stays as it is when the node leaves its parent. -/
theorem path_parent_release (linked : tree.Linked) (link : tree.parent? id = some parent)
    (higher : tree.Path parent path) : (tree.release id).Path parent path := by
  have fresh := (List.nodup_cons.mp (Path.step link higher).nodup).1
  apply higher.congr
  intro each member
  rw [linked.parent?_release, if_neg]
  rintro rfl
  exact fresh member

/-- The exchange of two nodes frees the lower one. -/
theorem displace (linked : tree.Linked) (link : tree.parent? id = some parent)
    (inside : above < tree.size) (different : id ≠ above)
    (apart : ∀ path, tree.Path id path → above ∉ path.tail) :
    ((tree.release above).displace parent id above).Linked := by
  have idInside := lt_size_of_parent? link
  have parentInside := linked.lt_size link
  have member : id ∈ (tree.children parent).erase above :=
    linked.mem_erase_iff parent id |>.mpr ⟨different, link⟩
  -- The same links arise when `id` is freed and `above` is placed where `id` was.
  have placed : ((tree.release id).attach parent above fun _ =>
      ((tree.children parent).erase above).replace id above).Linked := by
    apply (linked.release id).attach (by simpa using inside) (by simpa using parentInside)
    · intro path rises
      obtain ⟨upper, higher⟩ := linked.rises parent
      rw [rises.unique (linked.path_parent_release link higher)]
      exact apart _ (.step link higher)
    · rw [linked.children_release, List.erase_comm]
      exact perm_replace member
  apply placed.congr
  · intro each
    rw [children_displace (by simpa using parentInside), linked.children_release,
      linked.children_release, (linked.release id).children_attach (by simpa using parentInside)]
    by_cases atParent : each = parent
    · rw [if_pos atParent, if_pos atParent]
    · have kept : (tree.children each).erase id = tree.children each := by
        apply List.erase_of_not_mem
        intro elsewhere
        have owner := (linked.agree each id).mp elsewhere
        rw [link] at owner
        exact atParent (Option.some.inj owner).symm
      rw [if_neg atParent, if_neg atParent, linked.children_release, kept]
  · intro each
    rw [parent?_displace (by simpa using idInside) (by simpa using inside),
      linked.parent?_release, (linked.release id).parent?_attach (by simpa using inside),
      linked.parent?_release]
    by_cases lower : each = id
    · rw [if_pos lower, if_neg (lower ▸ different), if_pos lower]
    · by_cases upper : each = above
      · rw [if_neg lower, if_pos upper, if_pos upper]
      · rw [if_neg lower, if_neg upper, if_neg upper, if_neg upper, if_neg lower]

theorem insertAbove (linked : tree.Linked) (apart : ∀ path, tree.Path id path → above ∉ path.tail)
    (success : tree.insertAbove id above = .ok edited) : edited.Linked := by
  rcases insertAbove_ok_cases success with ⟨-, rfl⟩ | ⟨parent, link, inside⟩
  · exact linked
  · rw [insertAbove_eq link inside, linked.children_release] at success
    split at success
    case isTrue member =>
      have different := (linked.mem_erase_iff parent id |>.mp member).1
      exact (linked.displace link inside different apart).append success
    case isFalse =>
      cases success
      exact linked.release above

end Linked

/-- A node is never inserted above one of its own descendants. -/
def Edit.Permitted (tree : Tree) : Edit → Prop
  | .insertAbove id above => ∀ path, tree.Path id path → above ∉ path.tail
  | .create .. | .append .. | .prepend .. | .remove .. | .setAttribute .. | .removeAttribute .. =>
      True

/-- Each edit is permitted in the tree that it finds. -/
def Permits : Tree → List Edit → Prop
  | _, [] => True
  | tree, edit :: rest => edit.Permitted tree ∧ Permits (tree.applyOrKeep edit) rest

namespace Linked

variable {tree edited : Tree} {edit : Edit} {edits : List Edit}

/-- A permitted edit keeps a tree linked. -/
theorem apply (linked : tree.Linked) (permitted : edit.Permitted tree)
    (success : tree.apply edit = .ok edited) : edited.Linked := by
  cases edit with
  | create kind text =>
      cases success
      exact linked.create kind text
  | append parent child =>
      rw [apply_append] at success
      exact linked.append success
  | prepend parent child =>
      rw [apply_prepend] at success
      exact linked.prepend success
  | remove parent child =>
      obtain ⟨-, rfl⟩ := apply_remove_ok_iff.mp success
      exact linked.detach parent child
  | insertAbove id above =>
      rw [apply_insertAbove] at success
      exact linked.insertAbove permitted success
  | setAttribute id key value =>
      obtain ⟨-, rfl⟩ := apply_setAttribute_ok_iff.mp success
      exact linked.modify_attributes fun attributes => attributes.insert key value
  | removeAttribute id key =>
      obtain ⟨-, rfl⟩ := apply_removeAttribute_ok_iff.mp success
      exact linked.modify_attributes fun attributes => attributes.erase key

theorem applyOrKeep (linked : tree.Linked) (permitted : edit.Permitted tree) :
    (tree.applyOrKeep edit).Linked := by
  rw [Tree.applyOrKeep]
  cases result : tree.apply edit with
  | error fault => exact linked
  | ok edited => exact linked.apply permitted result

/-- A run of permitted edits keeps a tree linked. -/
theorem applyAll (linked : tree.Linked) (permitted : Permits tree edits) :
    (tree.applyAll edits).Linked := by
  induction edits generalizing tree with
  | nil => exact linked
  | cons edit rest inductionHypothesis =>
      exact inductionHypothesis (linked.applyOrKeep permitted.1) permitted.2

end Linked

end GlslFormula.Tree
