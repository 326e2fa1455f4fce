import GlslFormula.Proofs.Ascent
import GlslFormula.Proofs.Branches
import GlslFormula.Proofs.Origin
import GlslFormula.Proofs.Rounds
import GlslFormula.Shader.Generate
import GlslFormula.Tree.Walk

namespace GlslFormula

namespace Worklist

variable {State Item Failure : Type} {visit : State → Item → Except Failure (State × List Item)}
  {items : List Item} {bound : Nat}

/-- From each state the items come to an end within a number of rounds. -/
def Ends (visit : State → Item → Except Failure (State × List Item)) (items : List Item)
    (bound : Nat) : Prop :=
  ∀ state, ∃ rounds ≤ bound, ∃ result, Runs visit items state rounds result

theorem ends_nil : Ends visit [] bound :=
  fun state => ⟨0, Nat.zero_le bound, .ok state, .done state⟩

theorem Ends.mono {larger : Nat} (ends : Ends visit items bound) (le : bound ≤ larger) :
    Ends visit items larger := by
  intro state
  obtain ⟨rounds, few, result, runs⟩ := ends state
  exact ⟨rounds, Nat.le_trans few le, result, runs⟩

theorem Ends.append {first second : List Item} {few more : Nat} (before : Ends visit first few)
    (after : Ends visit second more) : Ends visit (first ++ second) (few + more) := by
  intro state
  obtain ⟨rounds, le, result, runs⟩ := before state
  cases result with
  | error failure =>
      exact ⟨rounds, Nat.le_trans le (Nat.le_add_right few more), _, runs.append_fail second⟩
  | ok middle =>
      obtain ⟨others, otherLe, result, otherRuns⟩ := after middle
      exact ⟨rounds + others, Nat.add_le_add le otherLe, result, runs.append otherRuns⟩

/-- An item ends one round after its followers. -/
theorem ends_single {item : Item}
    (follow : ∀ state next followers, visit state item = .ok (next, followers) →
      Ends visit followers bound) : Ends visit [item] (bound + 1) := by
  intro state
  cases visited : visit state item with
  | error failure => exact ⟨1, Nat.le_add_left 1 bound, _, .fail item [] state failure visited⟩
  | ok outcome =>
      obtain ⟨next, followers⟩ := outcome
      obtain ⟨rounds, few, result, runs⟩ := follow state next followers visited next
      refine ⟨rounds + 1, Nat.add_le_add_right few 1, result, ?_⟩
      apply Runs.round item [] followers state next rounds result visited
      rwa [List.append_nil]

/-- An item that has no followers ends at once. -/
theorem ends_plain {item : Item}
    (plain : ∀ state next followers, visit state item = .ok (next, followers) → followers = []) :
    Ends visit [item] 1 := by
  apply ends_single
  intro state next followers visited
  rw [plain state next followers visited]
  exact ends_nil

/-- Enough fuel gives the result of the whole walk. -/
theorem Ends.runs_fold {fuel : Nat} (ends : Ends visit items bound) (enough : bound ≤ fuel)
    (state : State) : ∃ rounds, Runs visit items state rounds (fold visit fuel items state) := by
  obtain ⟨rounds, few, result, runs⟩ := ends state
  refine ⟨rounds, ?_⟩
  rwa [runs.fold_eq (Nat.le_trans few enough)]

/-- A visit that never fails. -/
def always (visit : State → Item → State × List Item) (state : State) (item : Item) :
    Except Empty (State × List Item) :=
  .ok (visit state item)

/-- A walk that cannot fail comes to its end with the last state. -/
def Finishes (visit : State → Item → State × List Item) (items : List Item)
    (state last : State) : Prop :=
  ∃ rounds, Runs (always visit) items state rounds (.ok last)

theorem Ends.finishes {total : State → Item → State × List Item} {fuel : Nat}
    (ends : Ends (always total) items bound) (enough : bound ≤ fuel) (state : State) :
    Finishes total items state (foldTotal total fuel items state) := by
  obtain ⟨rounds, runs⟩ := ends.runs_fold enough state
  have same : fold (always total) fuel items state = .ok (foldTotal total fuel items state) :=
    fold_ok total fuel items state
  rw [same] at runs
  exact ⟨rounds, runs⟩

end Worklist

namespace Branch

/-- The bound for a branch leaves room for the items that its parent adds for it. -/
def rounds (extra : Nat) (branch : Branch) : Nat :=
  (2 * extra + 1) * branch.ids.length - extra

theorem sum_rounds (extra : Nat) (branches : List Branch) :
    (branches.map (rounds extra)).sum + extra * branches.length =
      (2 * extra + 1) * (idsAll branches).length := by
  induction branches with
  | nil => simp [idsAll]
  | cons branch rest inductionHypothesis =>
      have room : extra ≤ (2 * extra + 1) * branch.ids.length := by
        have positive := branch.ids_length_pos
        nlinarith
      rw [List.map_cons, List.sum_cons, List.length_cons, idsAll, List.length_append,
        Nat.mul_add, Nat.mul_add, ← inductionHypothesis, rounds]
      omega

end Branch

namespace Tree

open Worklist

variable {State Item Failure : Type} {visit : State → Item → Except Failure (State × List Item)}
  {tree : Tree} {enters : NodeId → Item → Prop} {extra : Nat} {bounds : List Nat}
  {ids : List NodeId}

/-- The items of each node end within the bound at its place. -/
def EndsEach (visit : State → Item → Except Failure (State × List Item))
    (enters : NodeId → Item → Prop) (ids : List NodeId) (bounds : List Nat) : Prop :=
  List.Forall₂ (fun id bound => ∀ item, enters id item → Ends visit [item] bound) ids bounds

/-- A node adds a fixed number of items to those of its children, and as many for each child. -/
def Spreads (tree : Tree) (visit : State → Item → Except Failure (State × List Item))
    (enters : NodeId → Item → Prop) (extra : Nat) : Prop :=
  ∀ id item bounds, enters id item → EndsEach visit enters (tree.children id) bounds →
    Ends visit [item] (bounds.sum + extra * bounds.length + extra + 1)

mutual

/-- The items of a branch end, from its leaves up. -/
theorem Grows.ends (spreads : tree.Spreads visit enters extra) (branch : Branch)
    (grows : tree.Grows branch) (item : Item) (entered : enters branch.top item) :
    Ends visit [item] (branch.rounds extra) := by
  match branch with
  | .node id branches =>
      have below := GrowsAll.ends spreads branches grows.2
      rw [← grows.1] at below
      have total := Branch.sum_rounds extra branches
      apply (spreads id item _ entered below).mono
      rw [List.length_map, total, Branch.rounds, Branch.ids, List.length_cons, Nat.mul_add]
      omega

theorem GrowsAll.ends (spreads : tree.Spreads visit enters extra) (branches : List Branch)
    (grows : tree.GrowsAll branches) :
    EndsEach visit enters (branches.map Branch.top) (branches.map (Branch.rounds extra)) := by
  match branches with
  | [] => exact .nil
  | branch :: rest =>
      exact .cons (Grows.ends spreads branch grows.1) (GrowsAll.ends spreads rest grows.2)

end

/-- From each node of the store the walk ends within a bound that depends only on the store. -/
theorem Linked.walk_ends (linked : tree.Linked) (spreads : tree.Spreads visit enters extra)
    {id : NodeId} (inside : id < tree.size) {item : Item} (entered : enters id item) :
    Ends visit [item] ((2 * extra + 1) * tree.size) := by
  obtain ⟨branch, rfl, grows⟩ := linked.exists_branch inside
  apply (grows.ends spreads branch item entered).mono
  have few := Nat.mul_le_mul_left (2 * extra + 1) (grows.length_le_size linked inside)
  rw [Branch.rounds]
  omega

/-- A walk over the children alone adds nothing to them, in whatever order it takes them. -/
theorem spreads_children (arrange : List NodeId → List NodeId)
    (permutes : ∀ ids, (arrange ids).Perm ids) (update : State → NodeId → State) :
    tree.Spreads (always fun state id => (update state id, arrange (tree.children id)))
      (fun id item => item = id) 0 := by
  have together {ids : List NodeId} {bounds : List Nat}
      (each : EndsEach (always fun state id => (update state id, arrange (tree.children id)))
        (fun id item => item = id) ids bounds) :
      Ends (always fun state id => (update state id, arrange (tree.children id))) ids
        bounds.sum := by
    induction each with
    | nil => exact ends_nil
    | cons first _ inductionHypothesis => exact (first _ rfl).append inductionHypothesis
  rintro _ top bounds rfl below
  obtain ⟨arranged, each, same⟩ := List.perm_comp_forall₂ (permutes (tree.children top)) below
  rw [Nat.zero_mul, ← same.sum_eq]
  apply ends_single
  rintro state next followers ⟨⟩
  exact together each

theorem ends_newline : Ends (always tree.outlineVisit) [.newline] 1 := by
  apply ends_plain
  rintro state next followers ⟨⟩
  rfl

theorem ends_closing (node : Node) (depth : Nat) :
    Ends (always tree.outlineVisit) [.closing node depth] 1 := by
  apply ends_plain
  rintro state next followers ⟨⟩
  rfl

theorem ends_openings (depth : Nat)
    (each : EndsEach (always tree.outlineVisit) (fun id item => ∃ depth, item = .opening id depth)
      ids bounds) :
    Ends (always tree.outlineVisit) (ids.flatMap fun child => [.opening child depth, .newline])
      (bounds.sum + bounds.length) := by
  induction each with
  | nil => exact ends_nil
  | cons first _ inductionHypothesis =>
      have line := ((first _ ⟨depth, rfl⟩).append ends_newline).append inductionHypothesis
      rw [List.flatMap_cons, List.sum_cons, List.length_cons]
      exact line.mono (by omega)

/-- An outline adds a line break behind each child and one closing tag. -/
theorem spreads_outline :
    tree.Spreads (always tree.outlineVisit) (fun id item => ∃ depth, item = .opening id depth)
      1 := by
  rintro id _ bounds ⟨depth, rfl⟩ below
  apply ends_single
  intro written next followers visited
  rw [always, Except.ok.injEq, outlineVisit] at visited
  rw [children] at below
  cases found : tree.get? id with
  | none =>
      rw [found] at visited
      cases visited
      exact ends_nil
  | some node =>
      rw [found] at visited below
      cases visited
      split
      · exact ends_nil
      · rw [Nat.one_mul]
        exact (ends_openings (depth + 1) below).append (ends_closing node depth)

theorem ends_separator : Ends (Shader.visit tree) [.separator] 1 := by
  apply ends_plain
  rintro state next followers ⟨⟩
  rfl

theorem ends_close : Ends (Shader.visit tree) [.close] 1 := by
  apply ends_plain
  rintro state next followers ⟨⟩
  rfl

theorem ends_argumentItems
    (each : EndsEach (Shader.visit tree) (fun id item => item = .node id) ids bounds) :
    Ends (Shader.visit tree) (Shader.argumentItems ids) (bounds.sum + bounds.length) := by
  induction each with
  | nil => exact ends_nil
  | cons first others inductionHypothesis =>
      rw [List.sum_cons, List.length_cons]
      cases others with
      | nil => exact (first _ rfl).mono (by omega)
      | cons second others =>
          have row := (first _ rfl).append (ends_separator.append inductionHypothesis)
          exact row.mono (by omega)

/-- A call adds a comma between each two arguments and a closing bracket. -/
theorem spreads_generate :
    tree.Spreads (Shader.visit tree) (fun id item => item = .node id) 1 := by
  rintro id _ bounds rfl below
  apply ends_single
  intro written next followers visited
  rw [children] at below
  rw [Shader.visit] at visited
  cases found : tree.get? id with
  | none =>
      rw [found] at visited
      cases visited
      exact ends_nil
  | some node =>
      rw [found] at visited below
      simp only [Shader.visitNode] at visited
      -- Only an operation with the right number of children has followers.
      split at visited
      · cases visited
        exact ends_nil
      · split at visited <;> cases visited
        exact ends_nil
      · split at visited
        · split at visited <;> cases visited
          rw [Nat.one_mul]
          exact (ends_argumentItems below).append ends_close
        · cases visited
      · cases visited

/-- All that reads a tree comes to an end on it. -/
structure Regular (tree : Tree) : Prop extends tree.Linked where
  searched : ∀ ancestor id, id < tree.size → tree.SearchEnds ancestor id
  counted : Finishes (fun count id => (count + 1, (tree.children id).reverse)) [root] 0 tree.length
  listed : Finishes (fun visited id => (id :: visited, tree.children id)) [root] []
    tree.preorder.reverse
  outlined : Finishes tree.outlineVisit [.opening root 0] "" tree.outline
  generated : ∀ top, tree.children root = [top] →
    ∃ rounds, Runs (Shader.visit tree) [.node top] "" rounds (Shader.generate tree)

theorem Linked.regular (linked : tree.Linked) (rooted : root < tree.size) : tree.Regular where
  toLinked := linked
  searched ancestor id inside := linked.searchEnds inside ancestor
  counted :=
    (linked.walk_ends (spreads_children List.reverse List.reverse_perm _) rooted rfl).finishes
      (by simp) 0
  listed := by
    rw [preorder, List.reverse_reverse]
    exact (linked.walk_ends (spreads_children (fun ids => ids) .refl _) rooted rfl).finishes
      (by simp) []
  outlined := (linked.walk_ends spreads_outline rooted ⟨0, rfl⟩).finishes (by simp) ""
  generated top single := by
    have inside : top < tree.size := by
      apply linked.child_lt_size
      rw [single]
      exact List.mem_singleton_self top
    rw [Shader.generate, single]
    exact (linked.walk_ends spreads_generate inside rfl).runs_fold (by simp) ""

/-- No edit takes a node out of the store. -/
theorem size_le_of_apply {edited : Tree} {edit : Edit} (success : tree.apply edit = .ok edited) :
    tree.size ≤ edited.size := by
  cases edit with
  | create kind text =>
      cases success
      simp
  | append parent child =>
      rw [apply_append] at success
      exact (size_append success).ge
  | prepend parent child =>
      rw [apply_prepend] at success
      obtain ⟨-, -, -, -, rfl⟩ := prepend_ok_iff.mp success
      simp
  | remove parent child =>
      obtain ⟨-, rfl⟩ := apply_remove_ok_iff.mp success
      simp
  | insertAbove id above =>
      rw [apply_insertAbove] at success
      exact (size_insertAbove success).ge
  | setAttribute id key value =>
      obtain ⟨-, rfl⟩ := apply_setAttribute_ok_iff.mp success
      simp
  | removeAttribute id key =>
      obtain ⟨-, rfl⟩ := apply_removeAttribute_ok_iff.mp success
      simp

theorem size_le_applyAll (tree : Tree) (edits : List Edit) :
    tree.size ≤ (tree.applyAll edits).size := by
  induction edits generalizing tree with
  | nil => exact Nat.le_refl _
  | cons edit rest inductionHypothesis =>
      have step : tree.size ≤ (tree.applyOrKeep edit).size := by
        rw [applyOrKeep]
        cases result : tree.apply edit with
        | error fault => exact Nat.le_refl _
        | ok edited => exact size_le_of_apply result
      exact Nat.le_trans step (inductionHypothesis _)

/-- Any run of permitted edits on a new tree, with those that fault skipped, leaves both kinds of
links in agreement and without a cycle, so each loop over the tree ends, and so does each permitted
edit that comes next. -/
theorem applyAll_regular (edits : List Edit) (permitted : Permits empty edits) :
    (empty.applyAll edits).Regular ∧
      ∀ edit : Edit, edit.Permitted (empty.applyAll edits) →
        edit.Ends (empty.applyAll edits) := by
  have linked := Linked.empty.applyAll permitted
  refine ⟨linked.regular (size_le_applyAll empty edits), ?_⟩
  intro edit allowed
  exact linked.edit_ends allowed

/-- These edits insert a node, try to close a cycle, name a missing node and insert a node above
itself. -/
def mixedEdits : List Edit :=
  [.create .number "1", .append 0 1, .create .operation "+", .insertAbove 1 2, .append 1 2,
    .prepend 9 1, .create .number "2", .append 2 3, .insertAbove 3 3]

theorem mixedEdits_permitted : Permits empty mixedEdits := by
  have fresh : ∀ path, ((empty.applyAll (mixedEdits.take 3)).Path 1 path) → 2 ∉ path.tail := by
    have upward : (empty.applyAll (mixedEdits.take 3)).Path 1 [1, 0] :=
      .step rfl (.top rfl)
    intro path rises
    rw [rises.unique upward]
    decide
  have itself : ∀ path, ((empty.applyAll (mixedEdits.take 8)).Path 3 path) → 3 ∉ path.tail := by
    have upward : (empty.applyAll (mixedEdits.take 8)).Path 3 [3, 2, 0] :=
      .step (by decide +kernel) (.step (by decide +kernel) (.top (by decide +kernel)))
    intro path rises
    rw [rises.unique upward]
    decide
  exact ⟨trivial, trivial, trivial, fresh, trivial, trivial, trivial, trivial, itself, trivial⟩

theorem applyAll_regular_sample :
    Permits empty mixedEdits ∧ (empty.applyAll mixedEdits).Regular ∧
      (empty.applyAll mixedEdits).preorder = [0, 2, 1] ∧ (.append 1 2 : Edit).Ends
        (empty.applyAll mixedEdits) := by
  have both := applyAll_regular mixedEdits mixedEdits_permitted
  exact ⟨mixedEdits_permitted, both.1, by decide +kernel, both.2 (.append 1 2) trivial⟩

end Tree

end GlslFormula
