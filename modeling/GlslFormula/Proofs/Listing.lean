import GlslFormula.Proofs.Shape
import GlslFormula.Proofs.Walks

namespace GlslFormula

namespace Worklist

variable {State Item : Type} {visit : State → Item → State × List Item} {items : List Item}
  {state last : State}

theorem finishes_nil (state : State) : Finishes visit [] state state := ⟨0, .done state⟩

theorem Finishes.append {first second : List Item} {middle : State}
    (before : Finishes visit first state middle) (after : Finishes visit second middle last) :
    Finishes visit (first ++ second) state last := by
  obtain ⟨rounds, runs⟩ := before
  obtain ⟨more, others⟩ := after
  exact ⟨rounds + more, runs.append others⟩

/-- An item finishes when its followers do. -/
theorem finishes_single {item : Item}
    (follow : Finishes visit (visit state item).2 (visit state item).1 last) :
    Finishes visit [item] state last := by
  obtain ⟨rounds, runs⟩ := follow
  refine ⟨rounds + 1, .round item [] _ state _ rounds _ rfl ?_⟩
  rwa [List.append_nil]

/-- A walk has only one end. -/
theorem Finishes.unique {other : State} (finishes : Finishes visit items state last)
    (again : Finishes visit items state other) : last = other := by
  obtain ⟨rounds, runs⟩ := finishes
  obtain ⟨more, others⟩ := again
  have first := runs.fold_eq (Nat.le_max_left rounds more)
  have second := others.fold_eq (Nat.le_max_right rounds more)
  exact Except.ok.inj (first.symm.trans second)

end Worklist

/-- A field of an object. Other values have none. -/
def Json.field? : Json → String → Option Json
  | .object fields, key => fields.lookup key
  | _, _ => none

namespace Tree

open Worklist Branch

variable {State : Type} {tree : Tree} {branch : Branch} {branches : List Branch} {id : NodeId}

mutual

/-- A walk meets the nodes of a branch in pre-order. -/
theorem Grows.walks (update : State → NodeId → State) (branch : Branch)
    (grows : tree.Grows branch) (state : State) :
    Finishes (fun state id => (update state id, tree.children id)) [branch.top] state
      (branch.ids.foldl update state) := by
  match branch with
  | .node id branches =>
      have below := GrowsAll.walks update branches grows.2 (update state id)
      rw [← grows.1] at below
      exact finishes_single below

theorem GrowsAll.walks (update : State → NodeId → State) (branches : List Branch)
    (grows : tree.GrowsAll branches) (state : State) :
    Finishes (fun state id => (update state id, tree.children id)) (branches.map top) state
      ((idsAll branches).foldl update state) := by
  match branches with
  | [] => exact finishes_nil state
  | branch :: rest =>
      have first := Grows.walks update branch grows.1 state
      have others := GrowsAll.walks update rest grows.2 (branch.ids.foldl update state)
      rw [idsAll, List.foldl_append]
      exact first.append others

end

theorem Regular.preorder_eq (regular : tree.Regular) (atRoot : branch.top = root)
    (grows : tree.Grows branch) : tree.preorder = branch.ids := by
  have walked := grows.walks (fun visited id => id :: visited) branch []
  rw [atRoot] at walked
  have same := walked.unique regular.listed
  rw [List.foldl_flip_cons_eq_append, List.append_nil, List.map_id'] at same
  exact (List.reverse_injective same).symm

theorem finishes_counts {arrange : List NodeId → List NodeId} {ids : List NodeId}
    {sizes : List Nat} (count : Nat)
    (each : List.Forall₂ (fun id size => ∀ count,
      Finishes (fun count id => (count + 1, arrange (tree.children id))) [id] count
        (count + size)) ids sizes) :
    Finishes (fun count id => (count + 1, arrange (tree.children id))) ids count
      (count + sizes.sum) := by
  induction each generalizing count with
  | nil => exact finishes_nil count
  | cons first _ inductionHypothesis =>
      rw [List.sum_cons, ← Nat.add_assoc]
      exact (first count).append (inductionHypothesis _)

theorem sum_sizes (branches : List Branch) :
    (branches.map fun branch => branch.ids.length).sum = (idsAll branches).length := by
  induction branches with
  | nil => rfl
  | cons branch rest inductionHypothesis =>
      rw [List.map_cons, List.sum_cons, inductionHypothesis, idsAll, List.length_append]

mutual

/-- The count of a branch does not depend on the order in which children are taken. -/
theorem Grows.counts {arrange : List NodeId → List NodeId}
    (permutes : ∀ ids, (arrange ids).Perm ids) (branch : Branch) (grows : tree.Grows branch)
    (count : Nat) :
    Finishes (fun count id => (count + 1, arrange (tree.children id))) [branch.top] count
      (count + branch.ids.length) := by
  match branch with
  | .node id branches =>
      have each := GrowsAll.counts permutes branches grows.2
      rw [← grows.1] at each
      obtain ⟨sizes, arranged, same⟩ :=
        List.perm_comp_forall₂ (permutes (tree.children id)) each
      have total : count + 1 + sizes.sum = count + (Branch.node id branches).ids.length := by
        rw [same.sum_eq, sum_sizes, ids, List.length_cons]
        omega
      rw [← total]
      exact finishes_single (finishes_counts (count + 1) arranged)

theorem GrowsAll.counts {arrange : List NodeId → List NodeId}
    (permutes : ∀ ids, (arrange ids).Perm ids) (branches : List Branch)
    (grows : tree.GrowsAll branches) :
    List.Forall₂ (fun id size => ∀ count,
      Finishes (fun count id => (count + 1, arrange (tree.children id))) [id] count
        (count + size)) (branches.map top) (branches.map fun branch => branch.ids.length) := by
  match branches with
  | [] => exact .nil
  | branch :: rest =>
      exact .cons (Grows.counts permutes branch grows.1) (GrowsAll.counts permutes rest grows.2)

end

theorem Regular.length_eq (regular : tree.Regular) (atRoot : branch.top = root)
    (grows : tree.Grows branch) : tree.length = branch.ids.length := by
  have walked := grows.counts List.reverse_perm branch 0
  rw [atRoot, Nat.zero_add] at walked
  exact regular.counted.unique walked

theorem tops_sublist (branches : List Branch) : (branches.map top).Sublist (idsAll branches) := by
  induction branches with
  | nil => exact .slnil
  | cons branch rest inductionHypothesis =>
      obtain ⟨id, below⟩ := branch
      have first : [id].Sublist (Branch.node id below).ids := by
        rw [ids, List.singleton_sublist]
        exact List.mem_cons_self ..
      exact first.append inductionHypothesis

mutual

/-- A node stands before its children, and these stand in their order. -/
theorem Grows.sublist (branch : Branch) (grows : tree.Grows branch) {id : NodeId}
    (member : id ∈ branch.ids) : (id :: tree.children id).Sublist branch.ids := by
  match branch with
  | .node first branches =>
      rw [ids, List.mem_cons] at member
      rw [ids]
      rcases member with rfl | below
      · rw [grows.1]
        exact (tops_sublist branches).cons_cons id
      · exact (GrowsAll.sublist branches grows.2 below).cons first

theorem GrowsAll.sublist (branches : List Branch) (grows : tree.GrowsAll branches) {id : NodeId}
    (member : id ∈ idsAll branches) : (id :: tree.children id).Sublist (idsAll branches) := by
  match branches with
  | branch :: rest =>
      rw [idsAll, List.mem_append] at member
      rw [idsAll]
      rcases member with first | later
      · exact (Grows.sublist branch grows.1 first).trans (List.sublist_append_left _ _)
      · exact (GrowsAll.sublist rest grows.2 later).trans (List.sublist_append_right _ _)

end

mutual

theorem Grows.descends (branch : Branch) (grows : tree.Grows branch) {id : NodeId}
    (member : id ∈ branch.ids) : tree.Descends branch.top id := by
  match branch with
  | .node first branches =>
      rw [ids, List.mem_cons] at member
      rcases member with rfl | below
      · exact .refl
      · obtain ⟨child, among, lower⟩ := GrowsAll.descends branches grows.2 below
        rw [← grows.1] at among
        exact .head among lower

theorem GrowsAll.descends (branches : List Branch) (grows : tree.GrowsAll branches) {id : NodeId}
    (member : id ∈ idsAll branches) : ∃ child ∈ branches.map top, tree.Descends child id := by
  match branches with
  | branch :: rest =>
      rw [idsAll, List.mem_append] at member
      rcases member with first | later
      · exact ⟨branch.top, List.mem_cons_self .., Grows.descends branch grows.1 first⟩
      · obtain ⟨other, among, lower⟩ := GrowsAll.descends rest grows.2 later
        exact ⟨other, List.mem_cons_of_mem _ among, lower⟩

end

/-- A branch has all nodes below its top and no others. -/
theorem Grows.mem_ids_iff (grows : tree.Grows branch) :
    id ∈ branch.ids ↔ tree.Descends branch.top id := by
  constructor
  · exact grows.descends branch
  · intro lower
    induction lower with
    | refl =>
        cases branch
        exact List.mem_cons_self ..
    | tail _ child member =>
        exact (grows.sublist branch member).subset (List.mem_cons_of_mem _ child)

/-- The rows of a structured value are those of the nodes in pre-order. A row has the children of
its node, and each of them has a row with that node as its parent. -/
structure ListedBy (tree : Tree) (rows : List Json) : Prop where
  named : rows.map (fun row => row.field? "id") = tree.preorder.map fun id => some (.number id)
  linked : ∀ row ∈ rows, ∃ id,
    row.field? "id" = some (.number id) ∧
      row.field? "children" = some (.array ((tree.children id).map .number)) ∧
      ∀ child ∈ tree.children id, ∃ below ∈ rows,
        below.field? "id" = some (.number child) ∧ below.field? "parent" = some (.number id)

theorem mem_listing_iff {node : Node} :
    (id, node) ∈ tree.listing ↔ id ∈ tree.preorder ∧ tree.get? id = some node := by
  simp only [listing, List.mem_filterMap, Option.map_eq_some_iff, Prod.mk.injEq]
  constructor
  · rintro ⟨other, member, found, stored, rfl, rfl⟩
    exact ⟨member, stored⟩
  · rintro ⟨member, stored⟩
    exact ⟨id, member, node, stored, rfl, rfl⟩

/-- The rows are in pre-order when each node of the list is in the store. -/
theorem map_fst_listing (stored : ∀ id ∈ tree.preorder, id < tree.size) :
    tree.listing.map Prod.fst = tree.preorder := by
  rw [listing, List.map_filterMap]
  have same : ∀ id ∈ tree.preorder,
      Option.map Prod.fst ((tree.get? id).map fun node => (id, node)) = some id := by
    intro id member
    obtain ⟨node, found⟩ := (get?_eq_some_iff_lt tree id).mpr (stored id member)
    rw [found]
    rfl
  rw [List.filterMap_congr same, List.filterMap_some]

/-- The structured value of a regular tree lists its branch. -/
theorem Regular.listed_toJson (regular : tree.Regular) (rooted : root < tree.size)
    (atRoot : branch.top = root) (grows : tree.Grows branch) :
    ∃ rows, tree.toJson.field? "nodes" = some (.array rows) ∧ tree.ListedBy rows := by
  have order := regular.preorder_eq atRoot grows
  have stored : ∀ id ∈ tree.preorder, id < tree.size := by
    rw [order]
    exact grows.lt_size regular.toLinked branch (atRoot ▸ rooted)
  refine ⟨tree.listing.map fun entry => nodeJson entry.1 entry.2, rfl, ?_, ?_⟩
  · rw [← map_fst_listing stored, List.map_map, List.map_map]
    rfl
  · intro row member
    obtain ⟨⟨id, node⟩, entry, rfl⟩ := List.mem_map.mp member
    obtain ⟨inside, found⟩ := mem_listing_iff.mp entry
    refine ⟨id, rfl, ?_, ?_⟩
    · rw [children_of_get? found]
      rfl
    · intro child among
      have parent := (regular.agree id child).mp among
      rw [order] at inside
      have listed : child ∈ tree.preorder := by
        rw [order]
        exact (grows.sublist branch inside).subset (List.mem_cons_of_mem id among)
      obtain ⟨below, stands⟩ := (get?_eq_some_iff_lt tree child).mpr (stored child listed)
      rw [parent?, stands, Option.bind_some] at parent
      refine ⟨nodeJson child below, ?_, rfl, ?_⟩
      · exact List.mem_map.mpr ⟨(child, below), mem_listing_iff.mpr ⟨listed, stands⟩, rfl⟩
      · simp only [nodeJson, parent]
        rfl

end Tree

end GlslFormula
