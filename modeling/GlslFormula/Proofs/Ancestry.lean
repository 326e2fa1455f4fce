import Mathlib
import GlslFormula.Tree

namespace GlslFormula.Tree

variable {tree changed : Tree} {id ancestor : NodeId} {path : List NodeId}

/-- These are the nodes from a node up to the first one that has no parent. -/
inductive Path (tree : Tree) : NodeId → List NodeId → Prop where
  | top {id : NodeId} (orphan : tree.parent? id = none) : Path tree id [id]
  | step {id above : NodeId} {rest : List NodeId} (linked : tree.parent? id = some above)
      (higher : Path tree above rest) : Path tree id (id :: rest)

namespace Path

theorem exists_cons (rises : tree.Path id path) : ∃ rest, path = id :: rest := by
  cases rises with
  | top orphan => exact ⟨[], rfl⟩
  | step linked higher => exact ⟨_, rfl⟩

theorem unique {other : List NodeId} (rises : tree.Path id path) (again : tree.Path id other) :
    path = other := by
  induction rises generalizing other with
  | top orphan =>
      cases again with
      | top => rfl
      | step linked higher => simp [orphan] at linked
  | step linked higher inductionHypothesis =>
      cases again with
      | top orphan => simp [orphan] at linked
      | step second rest =>
          obtain rfl := Option.some.inj (linked.symm.trans second)
          rw [inductionHypothesis rest]

/-- Each node on a path goes on with the rest of the path. -/
theorem of_append {before rest : List NodeId} {middle : NodeId}
    (rises : tree.Path id (before ++ middle :: rest)) : tree.Path middle (middle :: rest) := by
  induction before generalizing id with
  | nil =>
      obtain ⟨others, same⟩ := rises.exists_cons
      obtain ⟨rfl, rfl⟩ := List.cons.inj same
      exact rises
  | cons first before inductionHypothesis =>
      generalize whole : first :: before ++ middle :: rest = all at rises
      cases rises with
      | top orphan => simp at whole
      | step linked higher =>
          obtain ⟨-, rfl⟩ := List.cons.inj whole
          exact inductionHypothesis higher

/-- A second visit would go on for ever. -/
theorem nodup (rises : tree.Path id path) : path.Nodup := by
  induction rises with
  | top orphan => exact List.nodup_singleton _
  | step linked higher inductionHypothesis =>
      rename_i lowest above rest
      apply List.nodup_cons.mpr
      refine ⟨?_, inductionHypothesis⟩
      intro again
      obtain ⟨before, after, rfl⟩ := List.append_of_mem again
      have short := higher.of_append.unique (.step linked higher)
      have lengths := congrArg List.length short
      simp only [List.length_cons, List.length_append] at lengths
      omega

/-- A change of one parent leaves a path to each node when it leaves one to the changed node. -/
theorem reroute {pivot : NodeId} {other : List NodeId} (rises : tree.Path id path)
    (same : ∀ each, each ≠ pivot → changed.parent? each = tree.parent? each)
    (onward : changed.Path pivot other) : ∃ path, changed.Path id path := by
  induction rises with
  | @top id orphan =>
      by_cases moved : id = pivot
      · exact ⟨other, moved ▸ onward⟩
      · exact ⟨[id], .top ((same id moved).trans orphan)⟩
  | @step id above rest linked higher inductionHypothesis =>
      by_cases moved : id = pivot
      · exact ⟨other, moved ▸ onward⟩
      · obtain ⟨path, upward⟩ := inductionHypothesis
        exact ⟨id :: path, .step ((same id moved).trans linked) upward⟩

/-- A change elsewhere keeps a path. -/
theorem congr (rises : tree.Path id path)
    (same : ∀ each ∈ path, changed.parent? each = tree.parent? each) : changed.Path id path := by
  induction rises with
  | top orphan => exact .top ((same _ (List.mem_cons_self ..)).trans orphan)
  | step linked higher inductionHypothesis =>
      exact .step ((same _ (List.mem_cons_self ..)).trans linked)
        (inductionHypothesis fun each member => same each (List.mem_cons_of_mem _ member))

/-- Parents are in the store, so a path that starts there stays there. -/
theorem lt_size (rises : tree.Path id path) (inside : id < tree.size)
    (stored : ∀ child parent, tree.parent? child = some parent → parent < tree.size) :
    ∀ each ∈ path, each < tree.size := by
  induction rises with
  | top orphan =>
      intro each member
      rwa [List.mem_singleton.mp member]
  | step linked higher inductionHypothesis =>
      intro each member
      rcases List.mem_cons.mp member with rfl | above
      · exact inside
      · exact inductionHypothesis (stored _ _ linked) each above

/-- A path has no more nodes than the store. -/
theorem length_le_size (rises : tree.Path id path) (inside : ∀ each ∈ path, each < tree.size) :
    path.length ≤ tree.size := by
  have part : path ⊆ List.range tree.size := by
    intro each member
    exact List.mem_range.mpr (inside each member)
  have bound := (rises.nodup.subperm part).length_le
  rwa [List.length_range] at bound

/-- The search finds exactly the nodes of the path. -/
theorem isOnPath_eq (rises : tree.Path id path) {fuel : Nat} (enough : path.length ≤ fuel)
    (target : NodeId) : tree.isOnPath target fuel (some id) = decide (target ∈ path) := by
  induction rises generalizing fuel with
  | top orphan =>
      obtain ⟨fuel, rfl⟩ := Nat.exists_eq_add_of_le' enough
      rw [List.length_singleton, isOnPath, orphan]
      cases fuel <;> simp [isOnPath, eq_comm]
  | step linked higher inductionHypothesis =>
      obtain ⟨fuel, rfl⟩ := Nat.exists_eq_add_of_le' enough
      rw [List.length_cons, ← Nat.add_assoc, isOnPath, linked,
        inductionHypothesis (Nat.le_add_left _ _)]
      simp only [List.mem_cons, Bool.decide_or, eq_comm]
      split <;> simp_all

/-- The ancestors of a node are the other nodes of its path. -/
theorem isAncestor_iff (rises : tree.Path id path) (inside : ∀ each ∈ path.tail, each < tree.size) :
    tree.isAncestor ancestor id = true ↔ ancestor ∈ path.tail := by
  unfold isAncestor
  cases rises with
  | top orphan =>
      rw [orphan]
      cases tree.size <;> simp [isOnPath]
  | step linked higher =>
      rw [linked, higher.isOnPath_eq (higher.length_le_size inside)]
      simp

end Path

end GlslFormula.Tree
