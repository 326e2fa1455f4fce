import GlslFormula.Proofs.Offence
import GlslFormula.Proofs.Traversal
import GlslFormula.Proofs.Walks

namespace GlslFormula

open Shader Worklist

namespace Shader

/-- A node's own check comes before those of its children. Only an operation writes its children. -/
def writeNode (id : NodeId) (node : Node) (arguments : Except GenerateError String) :
    Except GenerateError String :=
  match node.kind with
  | .number => .ok node.text
  | .symbol =>
      match symbol? node.text with
      | some constant => .ok constant
      | none => .error (.unknownSymbol node.text)
  | .operation => apply node.text node.children.length arguments
  | .root => .error (.malformedNode .root id)

/-- What is wrong with a node by itself. A number never is, and a root below the root always is. -/
def nodeOffence? (id : NodeId) (node : Node) : Option GenerateError :=
  match node.kind with
  | .number => none
  | .symbol => symbolOffence? node.text
  | .operation => arityOffence? node.text (operation? node.text) node.children.length
  | .root => some (.malformedNode .root id)

end Shader

def Tree.offence? (tree : Tree) (id : NodeId) : Option GenerateError :=
  (tree.get? id).bind (nodeOffence? id)

namespace Branch

mutual

/-- A branch is written by recursion, with commas between the branches below its top. -/
def write (tree : Tree) : Branch → Except GenerateError String
  | .node id branches =>
      match tree.get? id with
      | none => .ok ""
      | some entry =>
          writeNode id entry ((writeAll tree branches).map fun texts => ", ".intercalate texts)

/-- The first branch that fails decides. -/
def writeAll (tree : Tree) : List Branch → Except GenerateError (List String)
  | [] => .ok []
  | branch :: rest =>
      (branch.write tree).bind fun text => (writeAll tree rest).map fun texts => text :: texts

end

/-- The branch of the root has exactly one branch below it, which is written. -/
def generate (tree : Tree) : Branch → Except GenerateError String
  | .node _ [top] => top.write tree
  | .node _ tops => .error (.topLevelCount tops.length)

mutual

/-- These are the nodes that are written, in pre-order. -/
def written (tree : Tree) : Branch → List NodeId
  | .node id branches => id :: if tree.isOperation id then writtenAll tree branches else []

def writtenAll (tree : Tree) : List Branch → List NodeId
  | [] => []
  | branch :: rest => branch.written tree ++ writtenAll tree rest

end

end Branch

namespace Shader

variable {tree : Tree} {id : NodeId} {node : Node} {arguments : Except GenerateError String}
  {bound : Nat}

/-- An item that adds a text and nothing else takes one round. -/
theorem writes_text {item : Item} {text : String}
    (visited : ∀ written, visit tree written item = .ok (written ++ text, [])) :
    Writes tree [item] (.ok text) 1 := by
  intro written
  exact ⟨1, Nat.le_refl 1, .round item [] [] written _ 0 _ (visited written) (.done _)⟩

theorem writes_error {item : Item} {error : GenerateError}
    (failed : ∀ written, visit tree written item = .error error) :
    Writes tree [item] (.error error) 1 := by
  intro written
  exact ⟨1, Nat.le_refl 1, .fail item [] written error (failed written)⟩

/-- A node is written with its arguments, in two rounds more than these. -/
theorem writes_node (found : tree.get? id = some node)
    (inside : Writes tree (argumentItems node.children) arguments bound) :
    Writes tree [.node id] (writeNode id node arguments) (bound + 2) := by
  have room : 1 ≤ bound + 2 := by omega
  rw [writeNode]
  cases kind : node.kind with
  | number =>
      apply Writes.mono _ room
      apply writes_text
      intro written
      simp [visit, found, visitNode, kind]
  | symbol =>
      apply Writes.mono _ room
      cases known : symbol? node.text with
      | none =>
          apply writes_error
          intro written
          simp [visit, found, visitNode, kind, known]
      | some constant =>
          apply writes_text
          intro written
          simp [visit, found, visitNode, kind, known]
  | operation => exact writes_operation ⟨node, found, kind, rfl, rfl⟩ inside
  | root =>
      apply Writes.mono _ room
      apply writes_error
      intro written
      simp [visit, found, visitNode, kind]

theorem error?_writeNode (id : NodeId) (node : Node) (arguments : Except GenerateError String) :
    error? (writeNode id node arguments) =
      (nodeOffence? id node).or (if node.kind = .operation then error? arguments else none) := by
  rw [writeNode, nodeOffence?]
  cases kind : node.kind with
  | number => rfl
  | symbol => cases known : symbol? node.text <;> simp [symbolOffence?, known, error?]
  | operation => exact Expression.error?_apply node.text node.children.length arguments
  | root => rfl

end Shader

namespace Tree

variable {tree : Tree} {branch : Branch}

mutual

/-- The items of a branch are written like the branch. -/
theorem Grows.writes (branch : Branch) (grows : tree.Grows branch) :
    Writes tree [.node branch.top] (branch.write tree) (3 * branch.ids.length - 1) := by
  match branch with
  | .node id branches =>
      have inside := GrowsAll.writes branches grows.2
      rw [Branch.write, Branch.ids, List.length_cons]
      cases found : tree.get? id with
      | none =>
          apply Writes.mono _ (show 1 ≤ _ by omega)
          apply writes_text
          intro written
          simp [visit, Branch.top, found]
      | some node =>
          rw [← grows.1, children_of_get? found] at inside
          exact (writes_node found inside).mono (by omega)

theorem GrowsAll.writes (branches : List Branch) (grows : tree.GrowsAll branches) :
    Writes tree (argumentItems (branches.map Branch.top))
      ((Branch.writeAll tree branches).map fun texts => ", ".intercalate texts)
      (3 * (Branch.idsAll branches).length) := by
  match branches with
  | [] =>
      intro written
      refine ⟨0, Nat.zero_le _, ?_⟩
      simpa [Branch.writeAll, Except.map, argumentItems] using Runs.done written
  | [branch] =>
      have only := Grows.writes branch grows.1
      have same : (Branch.writeAll tree [branch]).map (fun texts => ", ".intercalate texts) =
          branch.write tree := by
        rw [Branch.writeAll, Branch.writeAll]
        cases branch.write tree <;> simp [Except.bind, Except.map]
      rw [same]
      apply only.mono
      simp only [Branch.idsAll, List.append_nil]
      omega
  | branch :: next :: rest =>
      have row := (Grows.writes branch grows.1).join (GrowsAll.writes (next :: rest) grows.2)
      have same : (Branch.writeAll tree (branch :: next :: rest)).map
            (fun texts => ", ".intercalate texts) =
          Shader.join (branch.write tree)
            ((Branch.writeAll tree (next :: rest)).map fun texts => ", ".intercalate texts) := by
        rw [Branch.writeAll]
        cases branch.write tree with
        | error error => rfl
        | ok text =>
            rw [Branch.writeAll]
            cases next.write tree <;> cases Branch.writeAll tree rest <;>
              simp [Shader.join, Except.bind, Except.map, String.intercalate_cons_cons]
      have total : (Branch.idsAll (branch :: next :: rest)).length =
          branch.ids.length + (Branch.idsAll (next :: rest)).length := by
        rw [Branch.idsAll, List.length_append]
      have positive := branch.ids_length_pos
      rw [same]
      exact row.mono (by omega)

end

/-- The generator writes the branch of the root. -/
theorem Linked.generate_eq (linked : tree.Linked) (atRoot : branch.top = root)
    (grows : tree.Grows branch) : generate tree = branch.generate tree := by
  obtain ⟨id, branches⟩ := branch
  obtain rfl : id = root := atRoot
  have tops := grows.1
  match branches with
  | [] => rw [generate, tops]; rfl
  | [top] =>
      have inside : top.top < tree.size := by
        apply linked.child_lt_size
        rw [tops]
        exact List.mem_singleton_self _
      have few := grows.2.1.length_le_size linked inside
      obtain ⟨rounds, bound, runs⟩ := Grows.writes top grows.2.1 ""
      rw [generate, tops, Branch.generate]
      refine (runs.fold_eq (by omega)).trans ?_
      cases top.write tree with
      | error error => rfl
      | ok text => rw [Except.map, String.empty_append]
  | first :: second :: rest => rw [generate, tops]; simp [Branch.generate]

mutual

/-- Writing a branch fails with the first offence in pre-order. -/
theorem Grows.error?_write (branch : Branch) (grows : tree.Grows branch) :
    error? (branch.write tree) = (branch.written tree).findSome? tree.offence? := by
  match branch with
  | .node id branches =>
      have inside := GrowsAll.error?_writeAll branches grows.2
      rw [Branch.write, Branch.written, List.findSome?_cons, offence?, isOperation]
      cases found : tree.get? id with
      | none => rfl
      | some node =>
          have own := error?_writeNode id node
            ((Branch.writeAll tree branches).map fun texts => ", ".intercalate texts)
          rw [inside] at own
          cases offence : nodeOffence? id node <;> by_cases kind : node.kind = .operation <;>
            simpa [offence, kind] using own

theorem GrowsAll.error?_writeAll (branches : List Branch) (grows : tree.GrowsAll branches) :
    error? ((Branch.writeAll tree branches).map fun texts => ", ".intercalate texts) =
      (Branch.writtenAll tree branches).findSome? tree.offence? := by
  match branches with
  | [] => rfl
  | branch :: rest =>
      rw [Branch.writtenAll, List.findSome?_append, ← Grows.error?_write branch grows.1,
        ← GrowsAll.error?_writeAll rest grows.2, Branch.writeAll]
      cases branch.write tree <;> cases Branch.writeAll tree rest <;> rfl

end

/-- On each tree that permitted edits build, the generator writes what the recursion over the
branches writes. With one top-level expression it fails with the first offence among the nodes that
are written. -/
theorem generate_branchwise (edits : List Edit) (permitted : Permits empty edits) :
    (∃ branch : Branch, branch.top = root ∧ (empty.applyAll edits).Grows branch) ∧
      ∀ branch : Branch, branch.top = root → (empty.applyAll edits).Grows branch →
        generate (empty.applyAll edits) = branch.generate (empty.applyAll edits) ∧
          ∀ top, branch = .node root [top] →
            error? (generate (empty.applyAll edits)) =
              (top.written (empty.applyAll edits)).findSome? (empty.applyAll edits).offence? := by
  have linked := Linked.empty.applyAll permitted
  refine ⟨linked.exists_branch (size_le_applyAll empty edits), ?_⟩
  intro branch atRoot grows
  have same := linked.generate_eq atRoot grows
  refine ⟨same, ?_⟩
  rintro top rfl
  rw [same]
  exact Grows.error?_write top grows.2.1

/-- Below a sum there is a number with a child of its own and a second root. A call without an
argument stays apart. -/
def oddEdits : List Edit :=
  [.create .operation "+", .append 0 1, .create .number "2", .append 1 2, .create .symbol "q",
    .append 2 3, .create .root "", .append 1 4, .create .operation "sin"]

theorem generate_branchwise_sample :
    Permits empty oddEdits ∧
      (empty.applyAll oddEdits).Grows (.node 0 [.node 1 [.node 2 [.node 3 []], .node 4 []]]) ∧
      generate (empty.applyAll oddEdits) = .error (.malformedNode .root 4) ∧
      (Branch.node 1 [.node 2 [.node 3 []], .node 4 []]).written (empty.applyAll oddEdits) =
        [1, 2, 4] ∧
      [1, 2, 4].findSome? (empty.applyAll oddEdits).offence? =
        some (.malformedNode .root 4) := by
  have permitted : Permits empty oddEdits :=
    ⟨trivial, trivial, trivial, trivial, trivial, trivial, trivial, trivial, trivial, trivial⟩
  have grows : (empty.applyAll oddEdits).Grows
      (.node 0 [.node 1 [.node 2 [.node 3 []], .node 4 []]]) := by
    refine ⟨by decide +kernel, ⟨by decide +kernel, ⟨by decide +kernel, ⟨by decide +kernel,
      trivial⟩, trivial⟩, ⟨by decide +kernel, trivial⟩, trivial⟩, trivial⟩
  obtain ⟨same, first⟩ := (generate_branchwise oddEdits permitted).2 _ rfl grows
  have failed : generate (empty.applyAll oddEdits) = .error (.malformedNode .root 4) := by
    rw [same]
    decide +kernel
  have written : (Branch.node 1 [.node 2 [.node 3 []], .node 4 []]).written
      (empty.applyAll oddEdits) = [1, 2, 4] := by
    decide +kernel
  have offence := first _ rfl
  rw [failed, written] at offence
  exact ⟨permitted, grows, failed, written, offence.symm⟩

end Tree

end GlslFormula
