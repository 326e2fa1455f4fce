import GlslFormula.Json
import GlslFormula.Tree
import GlslFormula.Worklist

namespace GlslFormula.Tree

/-- The reachable nodes, the root first and each node before its children. -/
def preorder (tree : Tree) : List NodeId :=
  (Worklist.foldTotal (fun visited id => (id :: visited, tree.children id)) tree.size [root]
    []).reverse

/-- The number of reachable nodes. The last child of a node is visited first. -/
def length (tree : Tree) : Nat :=
  Worklist.foldTotal (fun count id => (count + 1, (tree.children id).reverse)) tree.size [root] 0

/-- The reachable nodes with their numbers, in the order of `preorder`. -/
def listing (tree : Tree) : List (NodeId × Node) :=
  tree.preorder.filterMap fun id => (tree.get? id).map fun node => (id, node)

/-- Objects have their keys in alphabetical order. -/
def attributesJson (attributes : Attributes) : Json :=
  .object (attributes.byKey.map fun entry => (entry.1, .string entry.2))

def nodeJson (id : NodeId) (node : Node) : Json :=
  .object
    [("attributes", attributesJson node.attributes),
      ("children", .array (node.children.map .number)),
      ("id", .number id),
      ("kind", .string node.kind.name),
      ("parent", match node.parent with
        | some parent => .number parent
        | none => .null),
      ("str", .string node.text)]

/-- Children are given by number, so the value is flat. -/
def toJson (tree : Tree) : Json :=
  .object
    [("nodes", .array (tree.listing.map fun entry => nodeJson entry.1 entry.2)),
      ("root", .number root)]

/-- Each level of the outline is indented by three spaces. -/
def indentation (depth : Nat) : String := "".pushn ' ' (3 * depth)

/-- An empty value is written as its key alone. -/
def attributeText (entry : String × String) : String :=
  if entry.2 = "" then " " ++ entry.1 else " " ++ entry.1 ++ "=\"" ++ entry.2 ++ "\""

/-- The opening tag of a childless node is also its closing tag. -/
def openTag (node : Node) (depth : Nat) : String :=
  indentation depth ++ "<" ++ node.kind.name ++
    (if node.text = "" then "" else " str=\"" ++ node.text ++ "\"") ++
    String.join (node.attributes.map attributeText) ++
    (if node.children = [] then " />" else ">\n")

def closeTag (node : Node) (depth : Nat) : String :=
  indentation depth ++ "</" ++ node.kind.name ++ ">"

/-- Pending text of an outline. -/
inductive OutlineItem where
  | opening (id : NodeId) (depth : Nat)
  | newline
  | closing (node : Node) (depth : Nat)

/-- A node with children is followed by its children, each on lines of its own, and its closing
tag. -/
def outlineVisit (tree : Tree) (written : String) : OutlineItem → String × List OutlineItem
  | .opening id depth =>
      match tree.get? id with
      | none => (written, [])
      | some node =>
          (written ++ openTag node depth,
            if node.children = [] then []
            else node.children.flatMap (fun child => [.opening child (depth + 1), .newline]) ++
              [.closing node depth])
  | .newline => (written ++ "\n", [])
  | .closing node depth => (written ++ closeTag node depth, [])

/-- Each reachable node gives at most three items. -/
def outline (tree : Tree) : String :=
  Worklist.foldTotal tree.outlineVisit (3 * tree.size) [.opening root 0] ""

end GlslFormula.Tree
