import GlslFormula.Proofs.Forest

namespace GlslFormula.Tree

variable {State : Type}

/-- Each round finds its node, gives the next state and says whether it is the last one. The loop
ends with this state. -/
inductive Ascends (tree : Tree) (visit : State → NodeId → Node → State × Bool) :
    (current : Option NodeId) → (state last : State) → Prop where
  | above (state : State) : Ascends tree visit none state state
  | stop {id : NodeId} {node : Node} {state last : State} (found : tree.get? id = some node)
      (stops : visit state id node = (last, true)) : Ascends tree visit (some id) state last
  | rise {id : NodeId} {node : Node} {state next last : State} (found : tree.get? id = some node)
      (goes : visit state id node = (next, false))
      (higher : Ascends tree visit node.parent next last) :
      Ascends tree visit (some id) state last

/-- A round of the search for an ancestor. -/
def seek (target : NodeId) (found : Bool) (id : NodeId) (_ : Node) : Bool × Bool :=
  if id = target then (true, true) else (found, false)

/-- The search for an ancestor starts at the parent of a node and ends with its answer. -/
def SearchEnds (tree : Tree) (ancestor id : NodeId) : Prop :=
  ∃ node, tree.get? id = some node ∧
    tree.Ascends (seek ancestor) node.parent false (tree.isAncestor ancestor id)

/-- An edit that links two nodes searches for a cycle. An insertion does so after the exchange. -/
def Edit.Ends (tree : Tree) : Edit → Prop
  | .append parent child | .prepend parent child =>
      parent ≠ child → parent < tree.size → tree.SearchEnds child parent
  | .insertAbove id above =>
      ∀ parent, tree.parent? id = some parent → above < tree.size →
        id ∈ (tree.release above).children parent →
        ((tree.release above).displace parent id above).SearchEnds id above
  | .create .. | .remove .. | .setAttribute .. | .removeAttribute .. => True

/-- The edits run in order, each of them ends and none of them faults. -/
inductive Executes : Tree → List Edit → Tree → Prop where
  | done (tree : Tree) : Executes tree [] tree
  | step {tree next last : Tree} {edit : Edit} {rest : List Edit} (ends : edit.Ends tree)
      (success : tree.apply edit = .ok next) (remaining : Executes next rest last) :
      Executes tree (edit :: rest) last

variable {tree last : Tree} {id : NodeId} {path : List NodeId} {edit : Edit} {edits : List Edit}

theorem Executes.applyAll_eq (executes : Executes tree edits last) :
    tree.applyAll edits = last := by
  induction executes with
  | done tree => rfl
  | step ends success remaining inductionHypothesis =>
      rw [← inductionHypothesis, applyAll, List.foldl_cons, applyOrKeep, success, applyAll]

theorem exists_get? (inside : id < tree.size) :
    ∃ node, tree.get? id = some node ∧ tree.parent? id = node.parent := by
  obtain ⟨node, found⟩ := (get?_eq_some_iff_lt tree id).mpr inside
  exact ⟨node, found, parent?_of_get? found⟩

/-- A function with fuel goes through the rounds of a loop. -/
structure Follows (tree : Tree) (visit : State → NodeId → Node → State × Bool)
    (result : Nat → Option NodeId → State → State) : Prop where
  above : ∀ fuel state, result fuel none state = state
  stop : ∀ fuel id node state last, tree.get? id = some node →
    visit state id node = (last, true) → result (fuel + 1) (some id) state = last
  rise : ∀ fuel id node state next, tree.get? id = some node →
    visit state id node = (next, false) →
    result (fuel + 1) (some id) state = result fuel node.parent next

section Loops

variable {visit : State → NodeId → Node → State × Bool}

/-- A loop that starts on a path ends there, and the function with enough fuel gives its result. -/
theorem Path.ascends {result : Nat → Option NodeId → State → State}
    (follows : tree.Follows visit result) (rises : tree.Path id path)
    (inside : ∀ each ∈ path, each < tree.size) {fuel : Nat} (enough : path.length ≤ fuel)
    (state : State) : tree.Ascends visit (some id) state (result fuel (some id) state) := by
  induction rises generalizing fuel state with
  | top orphan =>
      obtain ⟨node, found, above⟩ := exists_get? (inside _ (List.mem_cons_self ..))
      obtain ⟨fuel, rfl⟩ := Nat.exists_eq_add_of_le' enough
      rcases visited : visit state _ node with ⟨next, _ | _⟩
      · apply Ascends.rise found visited
        rw [List.length_singleton, follows.rise _ _ node _ _ found visited, ← above, orphan,
          follows.above]
        exact .above next
      · apply Ascends.stop found
        rw [List.length_singleton, follows.stop _ _ node _ _ found visited, visited]
  | step linked higher inductionHypothesis =>
      obtain ⟨node, found, above⟩ := exists_get? (inside _ (List.mem_cons_self ..))
      obtain ⟨fuel, rfl⟩ := Nat.exists_eq_add_of_le' enough
      rcases visited : visit state _ node with ⟨next, _ | _⟩
      · apply Ascends.rise found visited
        rw [List.length_cons, ← Nat.add_assoc, follows.rise _ _ node _ _ found visited, ← above,
          linked]
        exact inductionHypothesis (fun each later => inside each (List.mem_cons_of_mem _ later))
          (Nat.le_add_left _ _) next
      · apply Ascends.stop found
        rw [List.length_cons, ← Nat.add_assoc, follows.stop _ _ node _ _ found visited, visited]

/-- What each round keeps, the loop keeps. -/
theorem Ascends.keeps {current : Option NodeId} {state last : State}
    (ascends : tree.Ascends visit current state last) (property : State → Prop)
    (round : ∀ state id node, tree.get? id = some node → property state →
      property (visit state id node).1) (initial : property state) : property last := by
  induction ascends with
  | above state => exact initial
  | stop found stops =>
      have kept := round _ _ _ found initial
      rwa [stops] at kept
  | rise found goes higher inductionHypothesis =>
      have kept := round _ _ _ found initial
      rw [goes] at kept
      exact inductionHypothesis kept

end Loops

theorem follows_seek (tree : Tree) (target : NodeId) :
    tree.Follows (seek target)
      fun fuel current found => found || tree.isOnPath target fuel current where
  above fuel found := by cases fuel <;> simp [isOnPath]
  stop fuel id node found last _ stops := by
    by_cases same : id = target
    · rw [seek, if_pos same, Prod.mk.injEq] at stops
      rw [isOnPath, if_pos same, Bool.or_true, stops.1]
    · simp [seek, same] at stops
  rise fuel id node found next stored goes := by
    by_cases same : id = target
    · simp [seek, same] at goes
    · rw [seek, if_neg same, Prod.mk.injEq] at goes
      rw [isOnPath, if_neg same, parent?_of_get? stored, goes.1]

namespace Linked

variable {ancestor above parent : NodeId}

/-- In a linked tree each search for an ancestor ends. -/
theorem searchEnds (linked : tree.Linked) (inside : id < tree.size) (ancestor : NodeId) :
    tree.SearchEnds ancestor id := by
  obtain ⟨node, found, above⟩ := exists_get? inside
  refine ⟨node, found, ?_⟩
  rw [isAncestor, ← above]
  cases link : tree.parent? id with
  | none => cases tree.size <;> exact .above false
  | some parent =>
      obtain ⟨path, rises⟩ := linked.rises parent
      have stored := linked.path_lt_size rises (linked.lt_size link)
      exact rises.ascends (follows_seek tree ancestor) stored (rises.length_le_size stored) false

/-- A permitted edit ends, also when it faults. -/
theorem edit_ends (linked : tree.Linked) (permitted : edit.Permitted tree) : edit.Ends tree := by
  cases edit with
  | append parent child | prepend parent child =>
      intro _ inside
      exact linked.searchEnds inside child
  | insertAbove id above =>
      intro parent link inside member
      rw [linked.children_release] at member
      have different := (linked.mem_erase_iff parent id |>.mp member).1
      apply (linked.displace link inside different permitted).searchEnds
      simpa [Tree.displace] using inside
  | create | remove | setAttribute | removeAttribute => trivial

/-- A node becomes the last child of any node that is neither the node itself nor below it. -/
theorem append_succeeds (linked : tree.Linked) {child : NodeId} (parentInside : parent < tree.size)
    (childInside : child < tree.size) (apart : ∀ path, tree.Path parent path → child ∉ path) :
    ∃ edited, tree.append parent child = .ok edited := by
  obtain ⟨path, rises⟩ := linked.rises parent
  obtain ⟨rest, rfl⟩ := rises.exists_cons
  have fresh := apart _ rises
  rw [List.mem_cons, not_or] at fresh
  refine ⟨_, append_ok_iff.mpr ⟨Ne.symm fresh.1, parentInside, ?_, childInside, rfl⟩⟩
  rw [Bool.eq_false_iff]
  intro found
  exact fresh.2 ((linked.isAncestor_iff rises).mp found)

/-- After the exchange of two nodes the way up from the upper one is that from the old parent. -/
theorem path_displace (linked : tree.Linked) {upper : List NodeId}
    (link : tree.parent? id = some parent) (inside : above < tree.size) (different : id ≠ above)
    (apart : ∀ path, tree.Path id path → above ∉ path.tail) (higher : tree.Path parent upper) :
    ((tree.release above).displace parent id above).Path above (above :: upper) := by
  have idInside := lt_size_of_parent? link
  have freshId := (List.nodup_cons.mp (Path.step link higher).nodup).1
  have freshAbove := apart _ (.step link higher)
  have parents : ∀ each, ((tree.release above).displace parent id above).parent? each =
      if each = id then none else if each = above then some parent
      else (tree.release above).parent? each :=
    parent?_displace (by simpa using idInside) (by simpa using inside)
  refine .step ?_ (higher.congr ?_)
  · rw [parents, if_neg (Ne.symm different), if_pos rfl]
  · intro each onPath
    have notAbove : each ≠ above := fun same => freshAbove (same ▸ onPath)
    have notId : each ≠ id := fun same => freshId (same ▸ onPath)
    rw [parents, linked.parent?_release, if_neg notId, if_neg notAbove, if_neg notAbove]

/-- A node takes the place of any other node that is not below it. -/
theorem insertAbove_succeeds (linked : tree.Linked) (inside : id < tree.size)
    (upperInside : above < tree.size) (apart : ∀ path, tree.Path id path → above ∉ path.tail) :
    ∃ edited, tree.insertAbove id above = .ok edited := by
  cases link : tree.parent? id with
  | none =>
      obtain ⟨node, found, up⟩ := exists_get? inside
      refine ⟨tree, ?_⟩
      simp [Tree.insertAbove, node_of_get? found, ← up, link, bind, Except.bind, pure, Except.pure]
  | some parent =>
      rw [insertAbove_eq link upperInside, linked.children_release]
      split
      case isFalse => exact ⟨_, rfl⟩
      case isTrue member =>
        have different := (linked.mem_erase_iff parent id |>.mp member).1
        obtain ⟨upper, higher⟩ := linked.rises parent
        apply (linked.displace link upperInside different apart).append_succeeds
        · simpa [Tree.displace] using upperInside
        · simpa [Tree.displace] using inside
        · intro path rises
          rw [rises.unique (linked.path_displace link upperInside different apart higher),
            List.mem_cons, not_or]
          exact ⟨different, (List.nodup_cons.mp (Path.step link higher).nodup).1⟩

end Linked

end GlslFormula.Tree
