/-
This file runs the edits of a tree in place. Each step changes the store at once, so a fault between
two steps would leave half an edit behind. On the trees that edits build this never happens, and an
edit that faults leaves the store as it was.
-/
import GlslFormula.Proofs.Insertion

namespace GlslFormula

section Transactions

variable {Failure State Value Other : Type} {state middle : State} {value : Value}
  {failure : Failure} {action : EStateM Failure State Value}
  {next : Value → EStateM Failure State Other}

/-- A transaction keeps the old state when it fails. -/
def transact (state : State) :
    Except Failure (Value × State) → EStateM.Result Failure State Value
  | .ok (value, next) => .ok value next
  | .error failure => .error failure state

/-- The state that an action leaves behind, also when it fails. -/
def remains : EStateM.Result Failure State Value → State
  | .ok _ state => state
  | .error _ state => state

theorem bind_of_ok (result : action state = .ok value middle) :
    (action >>= next) state = next value middle := by
  simp only [bind, EStateM.bind, result]

theorem bind_of_error (result : action state = .error failure middle) :
    (action >>= next) state = .error failure middle := by
  simp only [bind, EStateM.bind, result]

/-- A transaction that fails leaves nothing behind. -/
theorem eq_of_transact_error {result : Except Failure (Value × State)}
    (failed : transact state result = .error failure middle) : middle = state := by
  cases result with
  | error other =>
      cases failed
      rfl
  | ok outcome => cases failed

theorem transact_error_iff {result : Except Failure (Value × State)} :
    (∃ failure middle, transact state result = .error failure middle) ↔
      ∃ failure, result = .error failure := by
  cases result <;> simp [transact]

end Transactions

namespace Tree

/-- An update changes the store step by step. A fault leaves the store as the steps before it left
it. -/
abbrev Update := EStateM Fault Tree

namespace Update

/-- The node must exist. -/
def read (id : NodeId) : Update Node := fun tree =>
  match tree.node id with
  | .ok node => .ok node tree
  | .error fault => .error fault tree

/-- Only a node that exists can be written. -/
def write (id : NodeId) (change : Node → Node) : Update Unit := do
  let _ ← read id
  set ((← get).modify id change)

/-- The list of the parent is written before the link of the child. -/
def remove (parent child : NodeId) : Update Bool := do
  let owner ← read parent
  if child ∈ owner.children then
    write parent fun node => { node with children := node.children.erase child }
    write child fun node => { node with parent := none }
    return true
  else return false

/-- The node leaves its parent, if it has one. -/
def release (id : NodeId) : Update Unit := do
  match (← read id).parent with
  | some old =>
      let _ ← remove old id
      return
  | none => return

def adopt (parent child : NodeId) : Update Unit := do
  if parent = child then throw (.cycle child parent)
  else
    let _ ← read parent
    if (← get).isAncestor child parent then throw (.cycle child parent)
    else
      release child
      write child fun node => { node with parent := some parent }

/-- The child is placed among the children of its new parent. -/
def attach (parent child : NodeId) (place : List NodeId → List NodeId) : Update Unit := do
  adopt parent child
  write parent fun node => { node with children := place node.children }

/-- The node `above` gets the place of `id` below `parent`. The search for a cycle comes after these
writes. -/
def exchange (parent id above : NodeId) : Update Unit := do
  write parent fun node => { node with children := node.children.replace id above }
  write above fun node => { node with parent := some parent }
  write id fun node => { node with parent := none }
  attach above id fun children => children ++ [id]

def insertAbove (id above : NodeId) : Update Unit := do
  match (← read id).parent with
  | none => return
  | some parent =>
      release above
      if id ∈ (← read parent).children then exchange parent id above else return

end Update

/-- An edit in place, with its reply. -/
def Edit.inPlace : Edit → Update Reply
  | .create kind text => do
      let tree ← get
      set (tree.create kind text)
      return .created tree.size
  | .append parent child => do
      Update.attach parent child fun children => children ++ [child]
      return .done
  | .prepend parent child => do
      Update.attach parent child fun children => child :: children
      return .done
  | .remove parent child => do
      return .removed (← Update.remove parent child)
  | .insertAbove id above => do
      Update.insertAbove id above
      return .done
  | .setAttribute id key value => do
      Update.write id fun node => { node with attributes := node.attributes.insert key value }
      return .done
  | .removeAttribute id key => do
      let owner ← Update.read id
      Update.write id fun node => { node with attributes := node.attributes.erase key }
      return .erased (owner.attributes.get? key)

/-- The edits run in place and in order, also behind one that faults. -/
def leaveAll (tree : Tree) (edits : List Edit) : Tree :=
  edits.foldl (fun tree edit => remains (edit.inPlace tree)) tree

/-- Each edit ends, also when it faults, in the store that those before it leave. -/
def Completes : Tree → List Edit → Prop
  | _, [] => True
  | tree, edit :: rest => edit.Ends tree ∧ Completes (remains (edit.inPlace tree)) rest

variable {tree edited : Tree} {id above parent child ancestor : NodeId} {node : Node}
  {change : Node → Node} {edit : Edit} {edits : List Edit}

namespace Update

theorem read_of_get? (found : tree.get? id = some node) : read id tree = .ok node tree := by
  rw [read, node_of_get? found]

theorem read_of_not_lt (missing : ¬ id < tree.size) :
    read id tree = .error (.missingNode id) tree := by
  rw [read, node_of_not_lt missing]

theorem write_of_lt (inside : id < tree.size) :
    write id change tree = .ok () (tree.modify id change) := by
  obtain ⟨node, found, -⟩ := exists_get? inside
  rw [write, bind_of_ok (read_of_get? found)]
  rfl

theorem write_of_not_lt (missing : ¬ id < tree.size) :
    write id change tree = .error (.missingNode id) tree := by
  rw [write, bind_of_error (read_of_not_lt missing)]

theorem release_of_not_lt (missing : ¬ id < tree.size) :
    release id tree = .error (.missingNode id) tree := by
  rw [release, bind_of_error (read_of_not_lt missing)]

/-- The reply of most edits only says that they are done. -/
theorem done_of_transact {update : Update Unit} {result : Except Fault Tree}
    (runs : update tree = transact tree (result.map fun edited => ((), edited))) :
    (update >>= fun _ => pure Reply.done) tree =
      transact tree (result.map fun edited => (Reply.done, edited)) := by
  cases result with
  | error fault => exact bind_of_error runs
  | ok edited => exact bind_of_ok runs

end Update

namespace Linked

open Update

/-- A child that is in a list is in the store, so both writes go through. -/
theorem remove_inPlace (linked : tree.Linked) (inside : parent < tree.size) (child : NodeId) :
    Update.remove parent child tree =
      .ok (decide (child ∈ tree.children parent)) (tree.detach parent child) := by
  obtain ⟨owner, found, -⟩ := exists_get? inside
  have same : tree.children parent = owner.children := by rw [children, found]
  rw [Update.remove, bind_of_ok (read_of_get? found), Tree.detach, same]
  split
  case isTrue member =>
    have stored : child < tree.size := by
      rw [← same, linked.agree] at member
      exact lt_size_of_parent? member
    rw [bind_of_ok (write_of_lt inside), bind_of_ok (write_of_lt (by simpa using stored))]
    simp [member, pure, EStateM.pure]
  case isFalse absent => simp [absent, pure, EStateM.pure]

theorem release_inPlace (linked : tree.Linked) (inside : id < tree.size) :
    Update.release id tree = .ok () (tree.release id) := by
  obtain ⟨node, found, link⟩ := exists_get? inside
  rw [Update.release, bind_of_ok (read_of_get? found), Tree.release, link]
  cases old : node.parent with
  | none => rfl
  | some parent =>
      have stored := linked.lt_size (link.trans old)
      show (Update.remove parent id >>= fun _ => pure ()) tree = _
      rw [bind_of_ok (linked.remove_inPlace stored id)]
      rfl

/-- All checks come before the first write. -/
theorem adopt_inPlace (linked : tree.Linked) (parent child : NodeId) :
    Update.adopt parent child tree =
      transact tree ((tree.adopt parent child).map fun adopted => ((), adopted)) := by
  unfold Update.adopt
  by_cases same : parent = child
  · simp [same, Tree.adopt, transact, Except.map, bind, Except.bind, throw, throwThe,
      MonadExceptOf.throw, EStateM.throw]
  rw [if_neg same]
  by_cases parentInside : parent < tree.size
  case neg =>
    rw [bind_of_error (read_of_not_lt parentInside)]
    simp [same, Tree.adopt, node_of_not_lt parentInside, transact, Except.map, bind, Except.bind]
  obtain ⟨owner, ownerFound, -⟩ := exists_get? parentInside
  rw [bind_of_ok (read_of_get? ownerFound)]
  show (if tree.isAncestor child parent = true then _ else _ : Update Unit) tree = _
  by_cases higher : tree.isAncestor child parent = true
  · simp [same, Tree.adopt, node_of_get? ownerFound, higher, transact, Except.map, bind,
      Except.bind, throw, throwThe, MonadExceptOf.throw, EStateM.throw]
  rw [if_neg higher]
  by_cases childInside : child < tree.size
  case neg =>
    rw [bind_of_error (release_of_not_lt childInside)]
    simp [same, Tree.adopt, node_of_get? ownerFound, higher, node_of_not_lt childInside, transact,
      Except.map, bind, Except.bind]
  have success : tree.adopt parent child =
      .ok ((tree.release child).setParent child (some parent)) :=
    adopt_ok_iff.mpr ⟨same, parentInside, by simpa using higher, childInside, rfl⟩
  rw [bind_of_ok (linked.release_inPlace childInside),
    write_of_lt (by simpa using childInside), success]
  rfl

theorem attach_inPlace (linked : tree.Linked) (parent child : NodeId)
    (place : List NodeId → List NodeId) :
    Update.attach parent child place tree =
      transact tree ((tree.adopt parent child).map fun adopted =>
        ((), adopted.setChildren parent place)) := by
  have adopts := linked.adopt_inPlace parent child
  rw [Update.attach]
  cases result : tree.adopt parent child with
  | error fault =>
      rw [result] at adopts
      rw [bind_of_error adopts]
      rfl
  | ok adopted =>
      rw [result] at adopts
      have inside : parent < adopted.size := by
        obtain ⟨-, stored, -, -, rfl⟩ := adopt_ok_iff.mp result
        simpa using stored
      rw [bind_of_ok adopts, write_of_lt inside]
      rfl

theorem append_inPlace (linked : tree.Linked) (parent child : NodeId) :
    Update.attach parent child (fun children => children ++ [child]) tree =
      transact tree ((tree.append parent child).map fun appended => ((), appended)) := by
  rw [linked.attach_inPlace, Tree.append]
  cases tree.adopt parent child <;> rfl

theorem prepend_inPlace (linked : tree.Linked) (parent child : NodeId) :
    Update.attach parent child (fun children => child :: children) tree =
      transact tree ((tree.prepend parent child).map fun prepended => ((), prepended)) := by
  rw [linked.attach_inPlace, Tree.prepend]
  cases tree.adopt parent child <;> rfl

/-- The late search finds no cycle, because the lower node has just lost its parent and the upper
one is not above it. -/
theorem exchange_inPlace (linked : tree.Linked) (link : tree.parent? id = some parent)
    (upperInside : above < tree.size) (different : above ≠ id)
    (permitted : (Edit.insertAbove id above).Permitted tree) :
    Update.exchange parent id above (tree.release above) =
      transact tree ((tree.insertAbove id above).map fun inserted => ((), inserted)) := by
  have inside := lt_size_of_parent? link
  have parentInside := linked.lt_size link
  have member : id ∈ (tree.release above).children parent := by
    rw [linked.children_release]
    exact (linked.mem_erase_iff parent id).mpr ⟨Ne.symm different, link⟩
  have exchanged := linked.displace link upperInside (Ne.symm different) permitted
  have success := linked.insertAbove_ok link upperInside different permitted
  rw [Update.exchange, bind_of_ok (write_of_lt (by simpa using parentInside)),
    bind_of_ok (write_of_lt (by simpa using upperInside)),
    bind_of_ok (write_of_lt (by simpa using inside))]
  refine (exchanged.append_inPlace above id).trans ?_
  rw [success]
  rw [insertAbove_eq link upperInside, if_pos member] at success
  rw [success]
  rfl

theorem insertAbove_inPlace (linked : tree.Linked)
    (permitted : (Edit.insertAbove id above).Permitted tree) :
    Update.insertAbove id above tree =
      transact tree ((tree.insertAbove id above).map fun inserted => ((), inserted)) := by
  rw [Update.insertAbove]
  by_cases inside : id < tree.size
  case neg =>
    rw [bind_of_error (read_of_not_lt inside)]
    simp [Tree.insertAbove, node_of_not_lt inside, transact, Except.map, bind, Except.bind]
  obtain ⟨node, found, up⟩ := exists_get? inside
  rw [bind_of_ok (read_of_get? found)]
  cases linkedUp : node.parent with
  | none =>
      rw [insertAbove_of_orphan inside (up.trans linkedUp)]
      rfl
  | some parent =>
      have link := up.trans linkedUp
      by_cases upperInside : above < tree.size
      case neg =>
        refine (bind_of_error (release_of_not_lt upperInside)).trans ?_
        simp [Tree.insertAbove, node_of_get? found, linkedUp, node_of_not_lt upperInside, transact,
          Except.map, bind, Except.bind]
      refine (bind_of_ok (linked.release_inPlace upperInside)).trans ?_
      have parentInside : parent < (tree.release above).size := by
        simpa using linked.lt_size link
      obtain ⟨owner, ownerFound, -⟩ := exists_get? parentInside
      have owned : owner.children = (tree.children parent).erase above := by
        rw [← linked.children_release, children, ownerFound]
      rw [bind_of_ok (read_of_get? ownerFound), owned]
      -- A node inserted above itself has just left the list, so nothing more is written.
      by_cases same : above = id
      · subst same
        rw [if_neg fun member => ((linked.mem_erase_iff parent above).mp member).1 rfl,
          linked.insertAbove_self link]
        rfl
      · rw [if_pos ((linked.mem_erase_iff parent id).mpr ⟨Ne.symm same, link⟩)]
        exact linked.exchange_inPlace link upperInside same permitted

/-- A permitted edit in place does what the edit does, and nothing if it faults. -/
theorem edit_inPlace (linked : tree.Linked) (permitted : edit.Permitted tree) :
    edit.inPlace tree = transact tree (tree.perform edit) := by
  cases edit with
  | create kind text => rfl
  | append parent child => exact done_of_transact (linked.append_inPlace parent child)
  | prepend parent child => exact done_of_transact (linked.prepend_inPlace parent child)
  | remove parent child =>
      rw [Edit.inPlace, perform, Tree.remove]
      by_cases inside : parent < tree.size
      · obtain ⟨owner, found, -⟩ := exists_get? inside
        have same : tree.children parent = owner.children := by rw [children, found]
        rw [bind_of_ok (linked.remove_inPlace inside child), node_of_get? found, same]
        rfl
      · have failed : Update.remove parent child tree = .error (.missingNode parent) tree := by
          rw [Update.remove, bind_of_error (read_of_not_lt inside)]
        rw [bind_of_error failed, node_of_not_lt inside]
        rfl
  | insertAbove id above => exact done_of_transact (linked.insertAbove_inPlace permitted)
  | setAttribute id key value =>
      rw [Edit.inPlace, perform, Tree.setAttribute]
      by_cases inside : id < tree.size
      · obtain ⟨owner, found, -⟩ := exists_get? inside
        rw [bind_of_ok (write_of_lt inside), node_of_get? found]
        rfl
      · rw [bind_of_error (write_of_not_lt inside), node_of_not_lt inside]
        rfl
  | removeAttribute id key =>
      rw [Edit.inPlace, perform, Tree.removeAttribute]
      by_cases inside : id < tree.size
      · obtain ⟨owner, found, -⟩ := exists_get? inside
        rw [bind_of_ok (read_of_get? found), bind_of_ok (write_of_lt inside), node_of_get? found]
        rfl
      · rw [bind_of_error (read_of_not_lt inside), node_of_not_lt inside]
        rfl

end Linked

/-- These edits fault: they name a missing node, or they would hang a node below itself. -/
def Edit.Faults (tree : Tree) : Edit → Prop
  | .append parent child | .prepend parent child =>
      ¬ parent < tree.size ∨ ¬ child < tree.size ∨ child = parent ∨ tree.HasAncestor parent child
  | .remove parent _ => ¬ parent < tree.size
  | .insertAbove id above =>
      ¬ id < tree.size ∨ (∃ parent, tree.parent? id = some parent) ∧ ¬ above < tree.size
  | .setAttribute id _ _ | .removeAttribute id _ => ¬ id < tree.size
  | .create _ _ => False

theorem perform_error_iff :
    (∃ fault, tree.perform edit = .error fault) ↔ ¬ ∃ edited, tree.apply edit = .ok edited := by
  rw [apply]
  cases tree.perform edit <;> simp [Except.map]

namespace Linked

theorem isAncestor_eq_true_iff (linked : tree.Linked) :
    tree.isAncestor ancestor id = true ↔ tree.HasAncestor id ancestor := by
  obtain ⟨path, rises⟩ := linked.rises id
  rw [linked.isAncestor_iff rises, rises.hasAncestor_iff]

/-- Both ways to place a child make the same checks. -/
theorem not_placed_iff (linked : tree.Linked) :
    (¬ (parent ≠ child ∧ parent < tree.size ∧ tree.isAncestor child parent = false ∧
      child < tree.size)) ↔
      ¬ parent < tree.size ∨ ¬ child < tree.size ∨ child = parent ∨
        tree.HasAncestor parent child := by
  rw [← linked.isAncestor_eq_true_iff]
  cases tree.isAncestor child parent <;> grind

theorem insertAbove_succeeds_iff (linked : tree.Linked)
    (permitted : (Edit.insertAbove id above).Permitted tree) :
    (∃ edited, tree.insertAbove id above = .ok edited) ↔
      id < tree.size ∧ (tree.parent? id = none ∨ above < tree.size) := by
  constructor
  · rintro ⟨edited, success⟩
    constructor
    · by_contra missing
      simp [Tree.insertAbove, node_of_not_lt missing, bind, Except.bind] at success
    · rcases insertAbove_ok_cases success with ⟨orphan, -⟩ | ⟨parent, -, upperInside⟩
      · exact .inl orphan
      · exact .inr upperInside
  · rintro ⟨inside, orphan | upperInside⟩
    · exact ⟨tree, insertAbove_of_orphan inside orphan above⟩
    · exact linked.insertAbove_succeeds inside upperInside permitted

/-- An edit faults exactly on what it names. -/
theorem faults_iff (linked : tree.Linked) (permitted : edit.Permitted tree) :
    (∃ fault, tree.perform edit = .error fault) ↔ edit.Faults tree := by
  rw [perform_error_iff]
  cases edit with
  | create kind text =>
      have created : ∃ edited, tree.apply (.create kind text) = .ok edited := ⟨_, rfl⟩
      simp [Edit.Faults, created]
  | append parent child =>
      rw [Edit.Faults, ← linked.not_placed_iff, apply_append]
      simp only [append_ok_iff, exists_and_left, exists_eq', and_true]
  | prepend parent child =>
      rw [Edit.Faults, ← linked.not_placed_iff, apply_prepend]
      simp only [prepend_ok_iff, exists_and_left, exists_eq', and_true]
  | remove parent child =>
      simp only [apply_remove_ok_iff, exists_and_left, exists_eq', and_true, Edit.Faults]
  | insertAbove id above =>
      rw [apply_insertAbove, linked.insertAbove_succeeds_iff permitted, Edit.Faults]
      cases tree.parent? id <;> simp [imp_iff_not_or]
  | setAttribute id key value =>
      simp only [apply_setAttribute_ok_iff, exists_and_left, exists_eq', and_true, Edit.Faults]
  | removeAttribute id key =>
      simp only [apply_removeAttribute_ok_iff, exists_and_left, exists_eq', and_true, Edit.Faults]

theorem remains_inPlace (linked : tree.Linked) (permitted : edit.Permitted tree) :
    remains (edit.inPlace tree) = tree.applyOrKeep edit := by
  rw [linked.edit_inPlace permitted, Tree.applyOrKeep, Tree.apply]
  cases tree.perform edit <;> rfl

/-- The edits of a run end exactly if all of them are permitted. -/
theorem completes_iff (linked : tree.Linked) : Completes tree edits ↔ Permits tree edits := by
  induction edits generalizing tree with
  | nil => exact Iff.rfl
  | cons edit rest inductionHypothesis =>
      rw [Completes, Permits]
      constructor
      · rintro ⟨ends, others⟩
        have permitted := linked.permitted_of_ends ends
        rw [linked.remains_inPlace permitted] at others
        exact ⟨permitted, (inductionHypothesis (linked.applyOrKeep permitted)).mp others⟩
      · rintro ⟨permitted, others⟩
        rw [linked.remains_inPlace permitted]
        exact ⟨linked.edit_ends permitted,
          (inductionHypothesis (linked.applyOrKeep permitted)).mpr others⟩

/-- A run of permitted edits in place leaves the tree of the same run, with those that fault
skipped. -/
theorem leaveAll_eq (linked : tree.Linked) (permitted : Permits tree edits) :
    tree.leaveAll edits = tree.applyAll edits := by
  induction edits generalizing tree with
  | nil => rfl
  | cons edit rest inductionHypothesis =>
      rw [leaveAll, List.foldl_cons, linked.remains_inPlace permitted.1]
      exact inductionHypothesis (linked.applyOrKeep permitted.1) permitted.2

end Linked

/-- On each tree that edits build in place, a permitted edit ends, it faults exactly on what it
names, and a fault leaves the whole store as it was. -/
theorem inPlace_atomic (edits : List Edit) (completes : Completes empty edits) :
    empty.leaveAll edits = empty.applyAll edits ∧
      ∀ edit : Edit, edit.Permitted (empty.leaveAll edits) →
        edit.Ends (empty.leaveAll edits) ∧
          edit.inPlace (empty.leaveAll edits) =
            transact (empty.leaveAll edits) ((empty.leaveAll edits).perform edit) ∧
          ((∃ fault left, edit.inPlace (empty.leaveAll edits) = .error fault left) ↔
            edit.Faults (empty.leaveAll edits)) ∧
          ∀ fault left, edit.inPlace (empty.leaveAll edits) = .error fault left →
            left = empty.leaveAll edits := by
  have permitted := Linked.empty.completes_iff.mp completes
  have same := Linked.empty.leaveAll_eq permitted
  have linked := Linked.empty.applyAll permitted
  rw [← same] at linked
  refine ⟨same, ?_⟩
  intro edit allowed
  have runs := linked.edit_inPlace allowed
  refine ⟨linked.edit_ends allowed, runs, ?_, ?_⟩
  · rw [runs, transact_error_iff, linked.faults_iff allowed]
  · intro fault left failed
    rw [runs] at failed
    exact eq_of_transact_error failed

/-- A node would hang below itself in the first edit, and the second one names a missing node. -/
theorem inPlace_atomic_sample :
    Completes empty nestedEdits ∧ (Edit.append 4 1).Permitted (empty.leaveAll nestedEdits) ∧
      (Edit.append 4 1).inPlace (empty.leaveAll nestedEdits) =
        .error (.cycle 1 4) (empty.leaveAll nestedEdits) ∧
      (Edit.insertAbove 3 9).Permitted (empty.leaveAll nestedEdits) ∧
      (Edit.insertAbove 3 9).Faults (empty.leaveAll nestedEdits) ∧
      (Edit.insertAbove 3 9).inPlace (empty.leaveAll nestedEdits) =
        .error (.missingNode 9) (empty.leaveAll nestedEdits) := by
  have completes := Linked.empty.completes_iff.mpr nestedEdits_permitted
  obtain ⟨same, atomic⟩ := inPlace_atomic nestedEdits completes
  have allowed : (Edit.insertAbove 3 9).Permitted (empty.leaveAll nestedEdits) := by
    have upward : (empty.leaveAll nestedEdits).Path 3 [3, 1, 0] := by
      rw [same]
      exact .step (by decide +kernel) (.step (by decide +kernel) (.top (by decide +kernel)))
    intro path rises
    rw [rises.unique upward]
    decide
  have missing : (empty.leaveAll nestedEdits).perform (.insertAbove 3 9) =
      .error (.missingNode 9) := by
    rw [same]
    decide +kernel
  have cyclic : (empty.leaveAll nestedEdits).perform (.append 4 1) = .error (.cycle 1 4) := by
    rw [same]
    decide +kernel
  have first := atomic (.append 4 1) trivial
  have second := atomic (.insertAbove 3 9) allowed
  have firstRuns := first.2.1
  have secondRuns := second.2.1
  rw [cyclic] at firstRuns
  rw [missing] at secondRuns
  exact ⟨completes, trivial, firstRuns, allowed, second.2.2.1.mp ⟨_, _, secondRuns⟩,
    secondRuns⟩

end Tree

end GlslFormula
