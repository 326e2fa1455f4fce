import GlslFormula.Proofs.Ascent

namespace GlslFormula.Tree

variable {tree edited : Tree} {id above parent ancestor : NodeId} {path : List NodeId}

/-- The node `ancestor` is the parent of `id`, or the parent of its parent, and so on. -/
def HasAncestor (tree : Tree) (id ancestor : NodeId) : Prop :=
  Relation.TransGen (fun lower upper => tree.parent? lower = some upper) id ancestor

/-- The ancestors of a node are the other nodes of its path. -/
theorem Path.hasAncestor_iff (rises : tree.Path id path) :
    tree.HasAncestor id ancestor ↔ ancestor ∈ path.tail := by
  induction rises with
  | top orphan =>
      rw [HasAncestor, Relation.TransGen.head'_iff]
      simp [orphan]
  | @step id upper rest link higher inductionHypothesis =>
      rw [HasAncestor, Relation.TransGen.head'_iff, List.tail_cons]
      constructor
      · rintro ⟨next, first, others⟩
        obtain rfl := Option.some.inj (link.symm.trans first)
        obtain ⟨above, rfl⟩ := higher.exists_cons
        rcases Relation.reflTransGen_iff_eq_or_transGen.mp others with rfl | further
        · exact List.mem_cons_self ..
        · exact List.mem_cons_of_mem _ (inductionHypothesis.mp further)
      · intro member
        obtain ⟨above, rfl⟩ := higher.exists_cons
        refine ⟨upper, link, ?_⟩
        rcases List.mem_cons.mp member with rfl | further
        · exact .refl
        · exact (inductionHypothesis.mpr further).to_reflTransGen

namespace Linked

/-- In a linked tree a node may be inserted above all but its descendants. -/
theorem permitted_insertAbove_iff (linked : tree.Linked) :
    (Edit.insertAbove id above).Permitted tree ↔ ¬ tree.HasAncestor id above := by
  obtain ⟨path, rises⟩ := linked.rises id
  rw [rises.hasAncestor_iff]
  constructor
  · intro apart
    exact apart path rises
  · intro fresh other climbs
    rwa [climbs.unique rises]

theorem not_hasAncestor_self (linked : tree.Linked) (id : NodeId) : ¬ tree.HasAncestor id id := by
  obtain ⟨path, rises⟩ := linked.rises id
  rw [rises.hasAncestor_iff]
  have distinct := rises.nodup
  obtain ⟨rest, rfl⟩ := rises.exists_cons
  exact (List.nodup_cons.mp distinct).1

/-- No node is its own child. -/
theorem not_mem_children_self (linked : tree.Linked) (id : NodeId) : id ∉ tree.children id := by
  intro member
  exact linked.not_hasAncestor_self id (.single ((linked.agree id id).mp member))

theorem not_mem_children_of_orphan (linked : tree.Linked) (orphan : tree.parent? id = none)
    (each : NodeId) : id ∉ tree.children each := by
  intro member
  rw [linked.agree, orphan] at member
  simp at member

end Linked

section Rings

/-- A search among nodes whose parents are among them again never ends. -/
theorem not_ascends_of_closed {target : NodeId} {found last : Bool} (ring : NodeId → Prop)
    (closed : ∀ each, ring each → ∃ next, ring next ∧ tree.parent? each = some next)
    (absent : ¬ ring target) (member : ring id) :
    ¬ tree.Ascends (seek target) (some id) found last := by
  intro ascends
  generalize start : some id = current at ascends
  induction ascends generalizing id with
  | above state => cases start
  | stop stored stops =>
      obtain rfl := Option.some.inj start
      have other : id ≠ target := by
        rintro rfl
        exact absent member
      simp [seek, other] at stops
  | rise stored goes higher inductionHypothesis =>
      obtain rfl := Option.some.inj start
      obtain ⟨next, inside, link⟩ := closed id member
      exact inductionHypothesis inside (link.symm.trans (parent?_of_get? stored))

/-- The node `each` is on the way from the parent of `id` up to `ancestor`. -/
def Between (tree : Tree) (id ancestor each : NodeId) : Prop :=
  tree.HasAncestor id each ∧
    Relation.ReflTransGen (fun lower upper => tree.parent? lower = some upper) each ancestor

namespace Linked

theorem ancestor_lt_size (linked : tree.Linked) (higher : tree.HasAncestor id ancestor) :
    ancestor < tree.size := by
  obtain ⟨lower, -, link⟩ := Relation.TransGen.tail'_iff.mp higher
  exact linked.lt_size link

/-- After the exchange the way from the old parent up to the inserted node leads back to this
parent. -/
theorem between_displace (linked : tree.Linked) (link : tree.parent? id = some parent)
    (higher : tree.HasAncestor id above) {each : NodeId} (between : tree.Between id above each) :
    ∃ next, tree.Between id above next ∧
      ((tree.release above).displace parent id above).parent? each = some next := by
  obtain ⟨onWay, below⟩ := between
  have inside := linked.ancestor_lt_size higher
  have apart : each ≠ id := by
    rintro rfl
    exact linked.not_hasAncestor_self each onWay
  rw [parent?_displace (by simpa using lt_size_of_parent? link) (by simpa using inside),
    if_neg apart, linked.parent?_release]
  by_cases top : each = above
  · obtain ⟨next, first, others⟩ := Relation.TransGen.head'_iff.mp higher
    obtain rfl := Option.some.inj (link.symm.trans first)
    exact ⟨parent, ⟨.single link, others⟩, if_pos top⟩
  · rcases below.cases_head with same | ⟨next, further, others⟩
    · exact absurd same top
    · refine ⟨next, ⟨onWay.tail further, others⟩, ?_⟩
      rw [if_neg top, if_neg top, further]

/-- An insertion above a descendant would run round between the two and never end. -/
theorem permitted_of_ends {edit : Edit} (linked : tree.Linked) (ends : edit.Ends tree) :
    edit.Permitted tree := by
  cases edit with
  | create | append | prepend | remove | setAttribute | removeAttribute => trivial
  | insertAbove id above =>
      rw [linked.permitted_insertAbove_iff]
      intro higher
      obtain ⟨parent, link, -⟩ := Relation.TransGen.head'_iff.mp higher
      have member : id ∈ (tree.release above).children parent := by
        rw [linked.children_release]
        refine (linked.mem_erase_iff parent id).mpr ⟨?_, link⟩
        rintro rfl
        exact linked.not_hasAncestor_self id higher
      obtain ⟨node, found, ascends⟩ := ends parent link (linked.ancestor_lt_size higher) member
      obtain ⟨next, between, first⟩ := linked.between_displace link higher ⟨higher, .refl⟩
      rw [← parent?_of_get? found, first] at ascends
      refine not_ascends_of_closed (tree.Between id above) ?_ ?_ between ascends
      · intro each onWay
        exact linked.between_displace link higher onWay
      · rintro ⟨same, -⟩
        exact linked.not_hasAncestor_self id same

end Linked

end Rings

section Labels

/-- What a node holds beside its links. -/
def label? (tree : Tree) (id : NodeId) : Option (NodeKind × String × Attributes) :=
  (tree.get? id).map fun node => (node.kind, node.text, node.attributes)

variable {each : NodeId}

theorem label?_setParent (link : Option NodeId) :
    (tree.setParent id link).label? each = tree.label? each := by
  rw [label?, setParent, get?_modify, label?]
  split <;> simp [Function.comp_def]

theorem label?_setChildren (change : List NodeId → List NodeId) :
    (tree.setChildren id change).label? each = tree.label? each := by
  rw [label?, setChildren, get?_modify, label?]
  split <;> simp [Function.comp_def]

theorem label?_release : (tree.release id).label? each = tree.label? each := by
  unfold release
  split
  · unfold detach
    split
    · exact (label?_setParent none).trans (label?_setChildren fun children => children.erase id)
    · rfl
  · rfl

theorem label?_displace : (tree.displace parent id above).label? each = tree.label? each :=
  (label?_setParent none).trans ((label?_setParent (some parent)).trans
    (label?_setChildren fun children => children.replace id above))

theorem label?_attach (place : List NodeId → List NodeId) :
    (tree.attach parent id place).label? each = tree.label? each := by
  rw [attach, label?_setChildren, label?_setParent, label?_release]

end Labels

/-- What an insertion of `above` between `parent` and `id` leaves behind. -/
structure Inserted (tree edited : Tree) (parent id above : NodeId) : Prop where
  place : edited.children parent =
    ((tree.children parent).erase above).map fun each => if each = id then above else each
  lowest : edited.children above = tree.children above ++ [id]
  lists : ∀ each, each ≠ parent → each ≠ above →
    edited.children each = (tree.children each).erase above
  upper : edited.parent? above = some parent
  lower : edited.parent? id = some above
  links : ∀ each, each ≠ above → each ≠ id → edited.parent? each = tree.parent? each
  labels : ∀ each, edited.label? each = tree.label? each

/-- What is left behind when `id` leaves `parent` and nothing takes its place. -/
structure Detached (tree edited : Tree) (parent id : NodeId) : Prop where
  place : edited.children parent = (tree.children parent).erase id
  lists : ∀ each, each ≠ parent → edited.children each = tree.children each
  loose : edited.parent? id = none
  links : ∀ each, each ≠ id → edited.parent? each = tree.parent? each
  labels : ∀ each, edited.label? each = tree.label? each

/-- Only one place of the list changes. -/
theorem replace_eq_map {children : List NodeId} (distinct : children.Nodup) :
    children.replace id above = children.map fun each => if each = id then above else each := by
  induction children with
  | nil => rfl
  | cons first rest inductionHypothesis =>
      rw [List.nodup_cons] at distinct
      by_cases same : first = id
      · have later : rest.map (fun each => if each = id then above else each) = rest := by
          rw [List.map_congr_left, List.map_id]
          intro each member
          rw [if_neg]
          · rfl
          · rintro rfl
            exact distinct.1 (same ▸ member)
        simp [same, later]
      · have other : (id == first) = false := by simpa using Ne.symm same
        rw [List.replace_cons, other, inductionHypothesis distinct.2]
        simp [same]

namespace Linked

/-- An insertion is an exchange of the two nodes and an append. -/
theorem insertAbove_ok (linked : tree.Linked) (link : tree.parent? id = some parent)
    (inside : above < tree.size) (different : above ≠ id)
    (apart : ∀ path, tree.Path id path → above ∉ path.tail) :
    tree.insertAbove id above =
      .ok (((tree.release above).displace parent id above).attach above id fun children =>
        children ++ [id]) := by
  have member : id ∈ (tree.release above).children parent := by
    rw [linked.children_release]
    exact (linked.mem_erase_iff parent id).mpr ⟨Ne.symm different, link⟩
  obtain ⟨edited, success⟩ :=
    linked.insertAbove_succeeds (lt_size_of_parent? link) inside apart
  rw [success]
  rw [insertAbove_eq link inside, if_pos member] at success
  obtain ⟨-, -, -, -, rfl⟩ := append_ok_iff.mp success
  rfl

theorem children_exchange (linked : tree.Linked) (link : tree.parent? id = some parent)
    (above each : NodeId) :
    ((tree.release above).displace parent id above).children each =
      if each = parent then ((tree.children parent).erase above).replace id above
      else (tree.children each).erase above := by
  rw [children_displace (by simpa using linked.lt_size link), linked.children_release,
    linked.children_release]

/-- After the exchange the lower node has no parent. -/
theorem parent?_exchange (linked : tree.Linked) (link : tree.parent? id = some parent)
    (inside : above < tree.size) (each : NodeId) :
    ((tree.release above).displace parent id above).parent? each =
      if each = id then none else if each = above then some parent else tree.parent? each := by
  rw [parent?_displace (by simpa using lt_size_of_parent? link) (by simpa using inside),
    linked.parent?_release]
  split_ifs <;> rfl

theorem inserted (linked : tree.Linked) (link : tree.parent? id = some parent)
    (inside : above < tree.size) (different : above ≠ id)
    (apart : ∀ path, tree.Path id path → above ∉ path.tail) :
    tree.Inserted (((tree.release above).displace parent id above).attach above id fun children =>
      children ++ [id]) parent id above := by
  have notParent : above ≠ parent := by
    rintro rfl
    obtain ⟨path, rises⟩ := linked.rises above
    apply apart _ (.step link rises)
    obtain ⟨rest, rfl⟩ := rises.exists_cons
    exact List.mem_cons_self ..
  have lists := linked.children_exchange link above
  have links := linked.parent?_exchange link inside
  have labels (each : NodeId) :
      ((tree.release above).displace parent id above).label? each = tree.label? each :=
    label?_displace.trans label?_release
  have exchanged := linked.displace link inside (Ne.symm different) apart
  have size : ((tree.release above).displace parent id above).size = tree.size := by
    simp [Tree.displace]
  generalize (tree.release above).displace parent id above = middle
    at lists links labels exchanged size ⊢
  -- The lower node is in no list of the exchanged tree, so the append only adds it.
  have absent (each : NodeId) : (middle.children each).erase id = middle.children each := by
    apply List.erase_of_not_mem
    apply exchanged.not_mem_children_of_orphan
    rw [links, if_pos rfl]
  have appended (each : NodeId) :
      (middle.attach above id fun children => children ++ [id]).children each =
        if each = above then middle.children above ++ [id] else middle.children each := by
    rw [exchanged.children_attach (size ▸ inside), absent, absent]
  have linkedTo (each : NodeId) :
      (middle.attach above id fun children => children ++ [id]).parent? each =
        if each = id then some above else middle.parent? each :=
    exchanged.parent?_attach (size ▸ lt_size_of_parent? link) _ each
  constructor
  · rw [appended, if_neg (Ne.symm notParent), lists, if_pos rfl,
      replace_eq_map ((linked.nodup parent).erase above)]
  · rw [appended, if_pos rfl, lists, if_neg notParent,
      List.erase_of_not_mem (linked.not_mem_children_self above)]
  · intro each notPlace notAbove
    rw [appended, if_neg notAbove, lists, if_neg notPlace]
  · rw [linkedTo, if_neg different, links, if_neg different, if_pos rfl]
  · rw [linkedTo, if_pos rfl]
  · intro each notAbove notId
    rw [linkedTo, if_neg notId, links, if_neg notId, if_neg notAbove]
  · intro each
    rw [label?_attach, labels]

/-- A node that is inserted above itself only leaves its parent. -/
theorem insertAbove_self (linked : tree.Linked) (link : tree.parent? id = some parent) :
    tree.insertAbove id id = .ok (tree.release id) := by
  have gone : id ∉ (tree.release id).children parent := by
    rw [linked.children_release, linked.mem_erase_iff]
    simp
  rw [insertAbove_eq link (lt_size_of_parent? link), if_neg gone]

theorem detached (linked : tree.Linked) (link : tree.parent? id = some parent) :
    tree.Detached (tree.release id) parent id := by
  constructor
  · rw [linked.children_release]
  · intro each other
    rw [linked.children_release, List.erase_of_not_mem]
    intro member
    rw [linked.agree, link] at member
    exact other (Option.some.inj member).symm
  · rw [linked.parent?_release, if_pos rfl]
  · intro each different
    rw [linked.parent?_release, if_neg different]
  · intro each
    exact label?_release

end Linked

/-- A node without a parent keeps its place, whatever is to stand above it. -/
theorem insertAbove_of_orphan (inside : id < tree.size) (orphan : tree.parent? id = none)
    (above : NodeId) : tree.insertAbove id above = .ok tree := by
  obtain ⟨node, found, up⟩ := exists_get? inside
  simp [insertAbove, node_of_get? found, ← up, orphan, bind, Except.bind, pure, Except.pure]

/-- In a linked tree an insertion exchanges the place of the lower node for the upper one and moves
nothing else. A node inserted above itself is detached, and one without a parent stays. -/
theorem insertAbove_effect (linked : tree.Linked) :
    (∀ id parent above, tree.parent? id = some parent → above < tree.size → above ≠ id →
      ¬ tree.HasAncestor id above →
        ∃ edited, tree.insertAbove id above = .ok edited ∧
          tree.Inserted edited parent id above) ∧
      (∀ id parent, tree.parent? id = some parent →
        ∃ edited, tree.insertAbove id id = .ok edited ∧ tree.Detached edited parent id) ∧
      ∀ id above, id < tree.size → tree.parent? id = none →
        tree.insertAbove id above = .ok tree := by
  refine ⟨?_, ?_, ?_⟩
  · intro id parent above link inside different lower
    have apart := linked.permitted_insertAbove_iff.mpr lower
    exact ⟨_, linked.insertAbove_ok link inside different apart,
      linked.inserted link inside different apart⟩
  · intro id parent link
    exact ⟨_, linked.insertAbove_self link, linked.detached link⟩
  · intro id above inside orphan
    exact insertAbove_of_orphan inside orphan above

/-- A call has three arguments, and the second one is a call with an argument of its own. -/
def nestedEdits : List Edit :=
  [.create .operation "f", .append 0 1, .create .number "2", .append 1 2, .create .operation "sin",
    .append 1 3, .create .symbol "z", .append 3 4, .create .number "5", .append 1 5]

theorem nestedEdits_permitted : Permits empty nestedEdits :=
  ⟨trivial, trivial, trivial, trivial, trivial, trivial, trivial, trivial, trivial, trivial,
    trivial⟩

theorem insertAbove_effect_sample :
    (empty.applyAll nestedEdits).Linked ∧ (empty.applyAll nestedEdits).parent? 3 = some 1 ∧
      ¬ (empty.applyAll nestedEdits).HasAncestor 3 4 ∧
      ∃ edited, (empty.applyAll nestedEdits).insertAbove 3 4 = .ok edited ∧
        (empty.applyAll nestedEdits).Inserted edited 1 3 4 ∧
        edited.children 1 = [2, 4, 5] ∧ edited.children 4 = [3] ∧ edited.children 3 = [] := by
  have linked := Linked.empty.applyAll nestedEdits_permitted
  have link : (empty.applyAll nestedEdits).parent? 3 = some 1 := by decide +kernel
  have lower : ¬ (empty.applyAll nestedEdits).HasAncestor 3 4 := by
    have rises : (empty.applyAll nestedEdits).Path 3 [3, 1, 0] :=
      .step link (.step (by decide +kernel) (.top (by decide +kernel)))
    rw [rises.hasAncestor_iff]
    decide
  obtain ⟨edited, success, inserted⟩ :=
    (insertAbove_effect linked).1 3 1 4 link (by decide +kernel) (by decide) lower
  refine ⟨linked, link, lower, edited, success, inserted, ?_, ?_, ?_⟩
  · rw [inserted.place]
    decide +kernel
  · rw [inserted.lowest]
    decide +kernel
  · rw [inserted.lists 3 (by decide) (by decide)]
    decide +kernel

end GlslFormula.Tree
