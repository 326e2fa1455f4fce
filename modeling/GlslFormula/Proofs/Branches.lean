import GlslFormula.Proofs.Forest

namespace GlslFormula

/-- A branch is a node with the branches below it. -/
inductive Branch where
  | node (id : NodeId) (branches : List Branch)

namespace Branch

def top : Branch → NodeId
  | .node id _ => id

mutual

/-- Each node comes before those below it. -/
def ids : Branch → List NodeId
  | .node id branches => id :: idsAll branches

def idsAll : List Branch → List NodeId
  | [] => []
  | branch :: rest => branch.ids ++ idsAll rest

end

theorem ids_length_pos (branch : Branch) : 0 < branch.ids.length := by
  cases branch
  simp [ids]

theorem mem_idsAll {branches : List Branch} {id : NodeId} :
    id ∈ idsAll branches ↔ ∃ branch ∈ branches, id ∈ branch.ids := by
  induction branches with
  | nil => simp [idsAll]
  | cons branch rest inductionHypothesis => simp [idsAll, inductionHypothesis]

end Branch

namespace Tree

open Branch

variable {tree : Tree} {branch : Branch} {branches : List Branch} {id : NodeId}
  {path : List NodeId}

mutual

/-- The branch has the children of each of its nodes. -/
def Grows (tree : Tree) : Branch → Prop
  | .node id branches => tree.children id = branches.map top ∧ GrowsAll tree branches

def GrowsAll (tree : Tree) : List Branch → Prop
  | [] => True
  | branch :: rest => tree.Grows branch ∧ GrowsAll tree rest

end

theorem GrowsAll.mem (grows : tree.GrowsAll branches) (member : branch ∈ branches) :
    tree.Grows branch := by
  induction branches with
  | nil => simp at member
  | cons first rest inductionHypothesis =>
      rcases List.mem_cons.mp member with rfl | later
      · exact grows.1
      · exact inductionHypothesis grows.2 later

theorem exists_growsAll {ids : List NodeId}
    (each : ∀ id ∈ ids, ∃ branch : Branch, branch.top = id ∧ tree.Grows branch) :
    ∃ branches : List Branch, branches.map top = ids ∧ tree.GrowsAll branches := by
  induction ids with
  | nil => exact ⟨[], rfl, trivial⟩
  | cons id rest inductionHypothesis =>
      obtain ⟨branch, first, grows⟩ := each id (List.mem_cons_self ..)
      obtain ⟨branches, others, growsRest⟩ := inductionHypothesis
        fun other member => each other (List.mem_cons_of_mem id member)
      refine ⟨branch :: branches, ?_, grows, growsRest⟩
      rw [List.map_cons, first, others]

theorem Linked.child_lt_size (linked : tree.Linked) {parent child : NodeId}
    (member : child ∈ tree.children parent) : child < tree.size :=
  lt_size_of_parent? ((linked.agree parent child).mp member)

theorem Linked.path_length_le (linked : tree.Linked) (rises : tree.Path id path)
    (inside : id < tree.size) : path.length ≤ tree.size :=
  rises.length_le_size (linked.path_lt_size rises inside)

/-- The path of a child is one node longer, so the branches below a node are lower. -/
theorem Linked.exists_branch_of_room (linked : tree.Linked) (room : Nat)
    (rises : tree.Path id path) (inside : id < tree.size)
    (bound : tree.size ≤ path.length + room) :
    ∃ branch : Branch, branch.top = id ∧ tree.Grows branch := by
  induction room generalizing id path with
  | zero =>
      have childless : tree.children id = [] := by
        apply List.eq_nil_iff_forall_not_mem.mpr
        intro child member
        have longer := linked.path_length_le (.step ((linked.agree id child).mp member) rises)
          (linked.child_lt_size member)
        rw [List.length_cons] at longer
        omega
      exact ⟨.node id [], rfl, childless, trivial⟩
  | succ room inductionHypothesis =>
      have below : ∀ child ∈ tree.children id,
          ∃ branch : Branch, branch.top = child ∧ tree.Grows branch := by
        intro child member
        apply inductionHypothesis (.step ((linked.agree id child).mp member) rises)
          (linked.child_lt_size member)
        rw [List.length_cons]
        omega
      obtain ⟨branches, tops, grows⟩ := exists_growsAll below
      exact ⟨.node id branches, rfl, tops.symm, grows⟩

theorem Linked.exists_branch (linked : tree.Linked) (inside : id < tree.size) :
    ∃ branch : Branch, branch.top = id ∧ tree.Grows branch := by
  obtain ⟨path, rises⟩ := linked.rises id
  exact linked.exists_branch_of_room tree.size rises inside (Nat.le_add_left ..)

/-- The branches below a node stand on the path of that node. -/
theorem Linked.path_top (linked : tree.Linked) (tops : tree.children id = branches.map top)
    (rises : tree.Path id path) (member : branch ∈ branches) :
    tree.Path branch.top (branch.top :: path) := by
  have child : branch.top ∈ tree.children id := by
    rw [tops]
    exact List.mem_map_of_mem member
  exact .step ((linked.agree id branch.top).mp child) rises

mutual

/-- The path of each node of a branch goes through the top of the branch. -/
theorem Grows.exists_path (linked : tree.Linked) (branch : Branch) (grows : tree.Grows branch)
    {path : List NodeId} (rises : tree.Path branch.top path) {id : NodeId}
    (member : id ∈ branch.ids) : ∃ before, tree.Path id (before ++ path) := by
  match branch with
  | .node first branches =>
      rw [ids, List.mem_cons] at member
      rcases member with rfl | below
      · exact ⟨[], rises⟩
      · obtain ⟨before, top, higher⟩ := GrowsAll.exists_path linked branches grows.2
          (fun branch member => linked.path_top grows.1 rises member) below
        exact ⟨before ++ [top], by simpa using higher⟩

theorem GrowsAll.exists_path (linked : tree.Linked) (branches : List Branch)
    (grows : tree.GrowsAll branches) {path : List NodeId}
    (rises : ∀ branch ∈ branches, tree.Path branch.top (branch.top :: path)) {id : NodeId}
    (member : id ∈ idsAll branches) :
    ∃ before top, tree.Path id (before ++ top :: path) := by
  match branches with
  | branch :: rest =>
      rw [idsAll, List.mem_append] at member
      rcases member with first | later
      · obtain ⟨before, higher⟩ := Grows.exists_path linked branch grows.1
          (rises branch (List.mem_cons_self ..)) first
        exact ⟨before, branch.top, higher⟩
      · exact GrowsAll.exists_path linked rest grows.2
          (fun other member => rises other (List.mem_cons_of_mem branch member)) later

end

mutual

/-- No node is in a branch twice. -/
theorem Grows.nodup (linked : tree.Linked) (branch : Branch) (grows : tree.Grows branch) :
    branch.ids.Nodup := by
  match branch with
  | .node first branches =>
      obtain ⟨path, rises⟩ := linked.rises first
      have tops : ∀ branch ∈ branches, tree.Path branch.top (branch.top :: path) :=
        fun branch member => linked.path_top grows.1 rises member
      rw [ids, List.nodup_cons]
      constructor
      · intro again
        obtain ⟨before, top, longer⟩ := GrowsAll.exists_path linked branches grows.2 tops again
        have lengths := congrArg List.length (longer.unique rises)
        simp only [List.length_append, List.length_cons] at lengths
        omega
      · apply GrowsAll.nodup linked branches grows.2 tops
        rw [← grows.1]
        exact linked.nodup first

theorem GrowsAll.nodup (linked : tree.Linked) (branches : List Branch)
    (grows : tree.GrowsAll branches) {path : List NodeId}
    (rises : ∀ branch ∈ branches, tree.Path branch.top (branch.top :: path))
    (distinct : (branches.map top).Nodup) : (idsAll branches).Nodup := by
  match branches with
  | [] => exact List.nodup_nil
  | branch :: rest =>
      rw [List.map_cons, List.nodup_cons] at distinct
      have others := fun other member => rises other (List.mem_cons_of_mem branch member)
      rw [idsAll, List.nodup_append]
      refine ⟨Grows.nodup linked branch grows.1,
        GrowsAll.nodup linked rest grows.2 others distinct.2, ?_⟩
      rintro id first _ later rfl
      obtain ⟨other, member, inside⟩ := mem_idsAll.mp later
      obtain ⟨before, higher⟩ := Grows.exists_path linked branch grows.1
        (rises branch (List.mem_cons_self ..)) first
      obtain ⟨otherBefore, otherHigher⟩ := Grows.exists_path linked other (grows.2.mem member)
        (others other member) inside
      have same := (List.append_inj' (higher.unique otherHigher) (by simp)).2
      apply distinct.1
      rw [(List.cons.inj same).1]
      exact List.mem_map_of_mem member

end

mutual

theorem Grows.lt_size (linked : tree.Linked) (branch : Branch) (grows : tree.Grows branch)
    (inside : branch.top < tree.size) : ∀ id ∈ branch.ids, id < tree.size := by
  match branch with
  | .node first branches =>
      intro id member
      rw [ids, List.mem_cons] at member
      rcases member with rfl | below
      · exact inside
      · apply GrowsAll.lt_size linked branches grows.2 _ id below
        intro branch member
        have child : branch.top ∈ tree.children first := by
          rw [grows.1]
          exact List.mem_map_of_mem member
        exact linked.child_lt_size child

theorem GrowsAll.lt_size (linked : tree.Linked) (branches : List Branch)
    (grows : tree.GrowsAll branches) (inside : ∀ branch ∈ branches, branch.top < tree.size) :
    ∀ id ∈ idsAll branches, id < tree.size := by
  match branches with
  | [] => simp [idsAll]
  | branch :: rest =>
      intro id member
      rw [idsAll, List.mem_append] at member
      rcases member with first | later
      · exact Grows.lt_size linked branch grows.1 (inside branch (List.mem_cons_self ..)) id first
      · exact GrowsAll.lt_size linked rest grows.2
          (fun other member => inside other (List.mem_cons_of_mem branch member)) id later

end

/-- A branch has no more nodes than the store. -/
theorem Grows.length_le_size (linked : tree.Linked) (grows : tree.Grows branch)
    (inside : branch.top < tree.size) : branch.ids.length ≤ tree.size := by
  have part : branch.ids ⊆ List.range tree.size := by
    intro id member
    exact List.mem_range.mpr (grows.lt_size linked branch inside id member)
  have bound := ((grows.nodup linked branch).subperm part).length_le
  rwa [List.length_range] at bound

end Tree

end GlslFormula
