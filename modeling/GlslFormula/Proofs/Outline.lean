import GlslFormula.Proofs.Listing

namespace GlslFormula

section Lines

variable {lines : List String}

theorem toList_pushn (c : Char) (count : Nat) :
    ("".pushn c count).toList = List.replicate count c := by
  induction count with
  | zero => rfl
  | succ count inductionHypothesis =>
      rw [String.pushn, Nat.repeat, String.toList_push, ← String.pushn, inductionHypothesis,
        List.replicate_succ']

/-- Each line ends with a line break. -/
def terminated (lines : List String) : String := String.join (lines.map fun line => line ++ "\n")

theorem terminated_cons (line : String) (rest : List String) :
    terminated (line :: rest) = line ++ "\n" ++ terminated rest := by
  rw [terminated, List.map_cons, String.join_cons]
  rfl

theorem terminated_append (first second : List String) :
    terminated (first ++ second) = terminated first ++ terminated second := by
  rw [terminated, List.map_append, String.join_append]
  rfl

/-- The last line of a text needs no line break. -/
theorem intercalate_concat (lines : List String) (last : String) :
    "\n".intercalate (lines ++ [last]) = terminated lines ++ last := by
  induction lines with
  | nil => simp [terminated]
  | cons line rest inductionHypothesis =>
      rw [List.cons_append, String.intercalate_cons_of_ne_nil (by simp), inductionHypothesis,
        terminated_cons]
      simp only [String.append_assoc]

theorem intercalate_terminated (present : lines ≠ []) :
    "\n".intercalate lines ++ "\n" = terminated lines := by
  obtain ⟨earlier, last, rfl⟩ := (List.eq_nil_or_concat' lines).resolve_left present
  rw [intercalate_concat, terminated_append, terminated_cons, String.append_assoc]
  simp [terminated]

end Lines

/-- An outline shows this of a node. -/
structure Face where
  kind : NodeKind
  text : String
  attributes : Attributes

def Node.face (node : Node) : Face := ⟨node.kind, node.text, node.attributes⟩

/-- The first tag of a node has its kind, its text and its attributes. -/
def Face.label (face : Face) : String :=
  face.kind.name ++ (if face.text = "" then "" else " str=\"" ++ face.text ++ "\"") ++
    String.join (face.attributes.map Tree.attributeText)

/-- The first tag of a node without children is also its last one. -/
def Face.ending (leaf : Bool) : String := if leaf then " />" else ">"

def Face.tag (face : Face) (leaf : Bool) : String := "<" ++ face.label ++ ending leaf

namespace Branch

mutual

/-- A node without branches is one line. Any other node is its opening line, the lines of its
branches with three spaces before them, and its closing line. -/
def lines (tree : Tree) : Branch → List String
  | .node id branches =>
      match tree.get? id with
      | none => []
      | some entry =>
          if branches.isEmpty then [entry.face.tag true]
          else
            entry.face.tag false ::
              ((linesAll tree branches).map ("   " ++ ·) ++ ["</" ++ entry.kind.name ++ ">"])

def linesAll (tree : Tree) : List Branch → List String
  | [] => []
  | branch :: rest => branch.lines tree ++ linesAll tree rest

end

/-- The lines are separated by line breaks, and there is none at the end. -/
def outline (tree : Tree) (branch : Branch) : String := "\n".intercalate (branch.lines tree)

end Branch

namespace Tree

open Worklist Branch

variable {tree : Tree} {branch : Branch} {node : Node}

theorem indentation_succ (depth : Nat) :
    indentation (depth + 1) = indentation depth ++ "   " := by
  apply String.toList_injective
  rw [indentation, indentation, String.toList_append, toList_pushn, toList_pushn, Nat.mul_add,
    List.replicate_add]
  rfl

/-- These are the lines at a depth of the outline. -/
def indented (depth : Nat) (lines : List String) : List String :=
  lines.map (indentation depth ++ ·)

theorem indented_deeper (depth : Nat) (lines : List String) :
    indented depth (lines.map ("   " ++ ·)) = indented (depth + 1) lines := by
  simp only [indented, List.map_map, indentation_succ, Function.comp_def, String.append_assoc]

theorem indented_append (depth : Nat) (first second : List String) :
    indented depth (first ++ second) = indented depth first ++ indented depth second :=
  List.map_append

theorem openTag_leaf (depth : Nat) (childless : node.children = []) :
    openTag node depth = indentation depth ++ node.face.tag true := by
  simp only [openTag, Face.tag, Face.label, Node.face, if_pos childless, String.append_assoc]
  rfl

theorem openTag_parent (depth : Nat) (parent : node.children ≠ []) :
    openTag node depth = indentation depth ++ node.face.tag false ++ "\n" := by
  simp only [openTag, Face.tag, Face.label, Node.face, if_neg parent, String.append_assoc]
  rfl

theorem closeTag_eq (node : Node) (depth : Nat) :
    closeTag node depth = indentation depth ++ ("</" ++ node.kind.name ++ ">") := by
  simp only [closeTag, String.append_assoc]

/-- The lines of a node with children stand between its tags. -/
theorem tags_parent (depth : Nat) (parent : node.children ≠ []) (inside : List String) :
    openTag node depth ++ terminated (indented (depth + 1) inside) ++ closeTag node depth =
      "\n".intercalate (indented depth (node.face.tag false ::
        (inside.map ("   " ++ ·) ++ ["</" ++ node.kind.name ++ ">"]))) := by
  have shown : indented depth (node.face.tag false ::
      (inside.map ("   " ++ ·) ++ ["</" ++ node.kind.name ++ ">"])) =
        (indentation depth ++ node.face.tag false) :: indented (depth + 1) inside ++
          [closeTag node depth] := by
    rw [closeTag_eq, ← indented_deeper, indented, List.map_cons, List.map_append]
    rfl
  rw [shown, intercalate_concat, terminated_cons, openTag_parent depth parent]

theorem lines_leaf {id : NodeId} (found : tree.get? id = some node) :
    (Branch.node id []).lines tree = [node.face.tag true] := by
  rw [lines, found]
  rfl

theorem lines_parent {id : NodeId} {rest : List Branch} (found : tree.get? id = some node) :
    (Branch.node id (branch :: rest)).lines tree =
      node.face.tag false ::
        ((linesAll tree (branch :: rest)).map ("   " ++ ·) ++ ["</" ++ node.kind.name ++ ">"]) := by
  rw [lines, found]
  rfl

theorem lines_ne_nil (found : tree.get? branch.top = some node) : branch.lines tree ≠ [] := by
  obtain ⟨id, _ | ⟨first, rest⟩⟩ := branch <;> rw [top] at found
  · simp [lines_leaf found]
  · simp [lines_parent found]

theorem finishes_newline (written : String) :
    Finishes tree.outlineVisit [.newline] written (written ++ "\n") :=
  finishes_single (finishes_nil _)

theorem finishes_closing (node : Node) (depth : Nat) (written : String) :
    Finishes tree.outlineVisit [.closing node depth] written (written ++ closeTag node depth) :=
  finishes_single (finishes_nil _)

mutual

/-- The items of a branch write its lines. -/
theorem Grows.outlines (branch : Branch) (grows : tree.Grows branch)
    (stored : ∀ id ∈ branch.ids, id < tree.size) (depth : Nat) (written : String) :
    Finishes tree.outlineVisit [.opening branch.top depth] written
      (written ++ "\n".intercalate (indented depth (branch.lines tree))) := by
  match branch with
  | .node id [] =>
      obtain ⟨node, found⟩ := (get?_eq_some_iff_lt tree id).mpr (stored id (by simp [ids]))
      have childless : node.children = [] := (children_of_get? found).symm.trans grows.1
      apply finishes_single
      rw [top, outlineVisit, found, lines_leaf found]
      simp only [if_pos childless, openTag_leaf depth childless]
      simp only [indented, List.map_cons, List.map_nil, String.intercalate_singleton]
      exact finishes_nil _
  | .node id (first :: rest) =>
      obtain ⟨node, found⟩ := (get?_eq_some_iff_lt tree id).mpr (stored id (by simp [ids]))
      have tops : node.children = (first :: rest).map top :=
        (children_of_get? found).symm.trans grows.1
      have parent : node.children ≠ [] := by
        rw [tops]
        simp
      have below := GrowsAll.outlines (first :: rest) grows.2
        (fun other member => stored other (by simp [ids, member])) (depth + 1)
        (written ++ openTag node depth)
      apply finishes_single
      rw [top, outlineVisit, found, lines_parent found]
      simp only [if_neg parent]
      rw [tops, ← tags_parent depth parent, ← String.append_assoc, ← String.append_assoc]
      exact below.append (finishes_closing node depth _)

theorem GrowsAll.outlines (branches : List Branch) (grows : tree.GrowsAll branches)
    (stored : ∀ id ∈ idsAll branches, id < tree.size) (depth : Nat) (written : String) :
    Finishes tree.outlineVisit
      ((branches.map top).flatMap fun child => [.opening child depth, .newline]) written
      (written ++ terminated (indented depth (linesAll tree branches))) := by
  match branches with
  | [] =>
      rw [linesAll, show terminated (indented depth []) = "" from rfl, String.append_empty]
      exact finishes_nil written
  | branch :: rest =>
      have inside : branch.top < tree.size :=
        stored branch.top (by cases branch; simp [idsAll, ids, top])
      obtain ⟨node, found⟩ := (get?_eq_some_iff_lt tree branch.top).mpr inside
      have first := Grows.outlines branch grows.1
        (fun id member => stored id (by simp [idsAll, member])) depth written
      have present : indented depth (branch.lines tree) ≠ [] := by
        simpa [indented] using lines_ne_nil found
      have others := GrowsAll.outlines rest grows.2
        (fun id member => stored id (by simp [idsAll, member])) depth
        (written ++ terminated (indented depth (branch.lines tree)))
      have line := first.append (finishes_newline _)
      rw [String.append_assoc, intercalate_terminated present] at line
      rw [linesAll, indented_append, terminated_append, ← String.append_assoc]
      exact line.append others

end

theorem Regular.outline_eq (regular : tree.Regular) (rooted : root < tree.size)
    (atRoot : branch.top = root) (grows : tree.Grows branch) :
    tree.outline = branch.outline tree := by
  have stored := grows.lt_size regular.toLinked branch (atRoot ▸ rooted)
  have written := grows.outlines branch stored 0 ""
  have margin : indented 0 (branch.lines tree) = branch.lines tree := by
    simp [indented, indentation, String.pushn, Nat.repeat]
  rw [atRoot, margin, String.empty_append] at written
  exact regular.outlined.unique written

/-- The last line of an outline ends with a tag. -/
theorem exists_outline_eq (found : tree.get? branch.top = some node) :
    ∃ text, branch.outline tree = text ++ ">" := by
  obtain ⟨id, _ | ⟨first, rest⟩⟩ := branch <;> rw [top] at found
  · refine ⟨"<" ++ node.face.label ++ " /", ?_⟩
    rw [Branch.outline, lines_leaf found, String.intercalate_singleton, Face.tag]
    simp only [String.append_assoc]
    rfl
  · rw [Branch.outline, lines_parent found, ← List.cons_append, intercalate_concat,
      ← String.append_assoc]
    exact ⟨_, rfl⟩

/-- All that goes through a tree goes through the nodes of this branch. They are the nodes below
the root, each of them once. A node stands before its children, and these stand in their order. -/
structure Traversed (tree : Tree) (branch : Branch) : Prop where
  preorder : tree.preorder = branch.ids
  once : tree.preorder.Nodup
  reached : ∀ id, id ∈ tree.preorder ↔ tree.Descends root id
  ordered : ∀ id ∈ tree.preorder, (id :: tree.children id).Sublist tree.preorder
  counted : tree.length = tree.preorder.length
  recounted : ∀ arrange : List NodeId → List NodeId, (∀ ids, (arrange ids).Perm ids) →
    Finishes (fun count id => (count + 1, arrange (tree.children id))) [root] 0 tree.length
  listed : ∃ rows, tree.toJson.field? "nodes" = some (.array rows) ∧ tree.ListedBy rows
  outlined : tree.outline = branch.outline tree
  closed : ∃ text, tree.outline = text ++ ">"

theorem Regular.traversed (regular : tree.Regular) (rooted : root < tree.size)
    (atRoot : branch.top = root) (grows : tree.Grows branch) : tree.Traversed branch := by
  have order := regular.preorder_eq atRoot grows
  have count := regular.length_eq atRoot grows
  have shown := regular.outline_eq rooted atRoot grows
  obtain ⟨node, found⟩ := (get?_eq_some_iff_lt tree root).mpr rooted
  constructor
  case preorder => exact order
  case once =>
    rw [order]
    exact grows.nodup regular.toLinked branch
  case reached =>
    intro id
    rw [order, ← atRoot]
    exact grows.mem_ids_iff
  case ordered =>
    rw [order]
    intro id member
    exact grows.sublist branch member
  case counted => rw [order, count]
  case recounted =>
    intro arrange permutes
    have walked := grows.counts permutes branch 0
    rwa [atRoot, Nat.zero_add, ← count] at walked
  case listed => exact regular.listed_toJson rooted atRoot grows
  case outlined => exact shown
  case closed =>
    rw [shown]
    exact exists_outline_eq (atRoot ▸ found)

/-- On each tree that permitted edits build, the walks with pending items agree with the recursion
over the branch of the root, and with each other. -/
theorem applyAll_traversed (edits : List Edit) (permitted : Permits empty edits) :
    (∃ branch : Branch, branch.top = root ∧ (empty.applyAll edits).Grows branch) ∧
      ∀ branch : Branch, branch.top = root → (empty.applyAll edits).Grows branch →
        (empty.applyAll edits).Traversed branch := by
  have linked := Linked.empty.applyAll permitted
  have rooted := size_le_applyAll empty edits
  refine ⟨linked.exists_branch rooted, ?_⟩
  intro branch atRoot grows
  exact (linked.regular rooted).traversed rooted atRoot grows

/-- The operator was created after its operand and inserted above it. The other operand is
detached. -/
theorem applyAll_traversed_sample :
    Permits empty mixedEdits ∧
      (empty.applyAll mixedEdits).Grows (.node 0 [.node 2 [.node 1 []]]) ∧
      (empty.applyAll mixedEdits).preorder = [0, 2, 1] ∧
      ¬ (empty.applyAll mixedEdits).Descends root 3 ∧
      Finishes (fun count id => (count + 1, ((empty.applyAll mixedEdits).children id).reverse))
        [root] 0 3 ∧
      (empty.applyAll mixedEdits).outline =
        "<root>\n   <operation str=\"+\">\n      <number str=\"1\" />\n" ++
          "   </operation>\n</root>" := by
  have grows : (empty.applyAll mixedEdits).Grows (.node 0 [.node 2 [.node 1 []]]) :=
    ⟨by decide +kernel, ⟨by decide +kernel, ⟨by decide +kernel, trivial⟩, trivial⟩, trivial⟩
  have traversed := (applyAll_traversed mixedEdits mixedEdits_permitted).2 _ rfl grows
  have order : (empty.applyAll mixedEdits).preorder = [0, 2, 1] := traversed.preorder
  have count : (empty.applyAll mixedEdits).length = 3 := by rw [traversed.counted, order]; rfl
  refine ⟨mixedEdits_permitted, grows, order, ?_, ?_, ?_⟩
  · rw [← traversed.reached, order]
    decide
  · rw [← count]
    exact traversed.recounted List.reverse List.reverse_perm
  · rw [traversed.outlined]
    decide +kernel

end Tree

end GlslFormula
