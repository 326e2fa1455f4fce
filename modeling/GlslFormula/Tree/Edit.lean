import GlslFormula.Tree

namespace GlslFormula.Tree

/-- An edit faults on a node that was never created, and on a link that would close a cycle. -/
inductive Fault where
  | missingNode (id : NodeId)
  | cycle (child parent : NodeId)
deriving DecidableEq

/-- Only a cycle has a message. -/
def Fault.message? : Fault → Option String
  | .missingNode _ => none
  | .cycle child parent =>
      some ("adopting " ++ NodeId.text child ++ " under " ++ NodeId.text parent ++
        " would create a cycle")

/-- The node must exist. -/
def node (tree : Tree) (id : NodeId) : Except Fault Node :=
  match tree.get? id with
  | some node => .ok node
  | none => .error (.missingNode id)

/-- The new node is detached, and its number is the old store size. -/
def create (tree : Tree) (kind : NodeKind) (text : String) : Tree :=
  ⟨tree.nodes.push { kind, text }⟩

/-- The child leaves the child list of `parent`, if it is there. -/
def detach (tree : Tree) (parent child : NodeId) : Tree :=
  if child ∈ tree.children parent then
    (tree.modify parent fun node => { node with children := node.children.erase child }).modify
      child fun node => { node with parent := none }
  else tree

/-- The child leaves its old parent and points to the new one. -/
def adopt (tree : Tree) (parent child : NodeId) : Except Fault Tree := do
  if parent = child then throw (.cycle child parent)
  let _ ← tree.node parent
  if tree.isAncestor child parent then throw (.cycle child parent)
  let orphan := match (← tree.node child).parent with
    | some old => tree.detach old child
    | none => tree
  return orphan.modify child fun node => { node with parent := some parent }

/-- The child becomes the last child of `parent`. -/
def append (tree : Tree) (parent child : NodeId) : Except Fault Tree := do
  let adopted ← tree.adopt parent child
  return adopted.modify parent fun node => { node with children := node.children ++ [child] }

/-- The child becomes the first child of `parent`. -/
def prepend (tree : Tree) (parent child : NodeId) : Except Fault Tree := do
  let adopted ← tree.adopt parent child
  return adopted.modify parent fun node => { node with children := child :: node.children }

/-- The result also says whether the child was there. -/
def remove (tree : Tree) (parent child : NodeId) : Except Fault (Bool × Tree) := do
  let owner ← tree.node parent
  return (decide (child ∈ owner.children), tree.detach parent child)

/-- The node `above` takes the place of `id` and gets `id` as its last child. A node without a
parent keeps its place. -/
def insertAbove (tree : Tree) (id above : NodeId) : Except Fault Tree := do
  match (← tree.node id).parent with
  | none => return tree
  | some parent =>
      let freed := match (← tree.node above).parent with
        | some old => tree.detach old above
        | none => tree
      if id ∈ freed.children parent then
        let replaced := freed.modify parent fun node =>
          { node with children := node.children.replace id above }
        let linked := replaced.modify above fun node => { node with parent := some parent }
        let loose := linked.modify id fun node => { node with parent := none }
        loose.append above id
      else return freed

def setAttribute (tree : Tree) (id : NodeId) (key value : String) : Except Fault Tree := do
  let _ ← tree.node id
  return tree.modify id fun node => { node with attributes := node.attributes.insert key value }

/-- The result also holds the old value. -/
def removeAttribute (tree : Tree) (id : NodeId) (key : String) :
    Except Fault (Option String × Tree) := do
  let owner ← tree.node id
  return (owner.attributes.get? key,
    tree.modify id fun node => { node with attributes := node.attributes.erase key })

inductive Edit where
  | create (kind : NodeKind) (text : String)
  | append (parent child : NodeId)
  | prepend (parent child : NodeId)
  | remove (parent child : NodeId)
  | insertAbove (id above : NodeId)
  | setAttribute (id : NodeId) (key value : String)
  | removeAttribute (id : NodeId) (key : String)
deriving DecidableEq

/-- The reply is what an edit says about the tree before it. -/
inductive Reply where
  | done
  | created (id : NodeId)
  | removed (found : Bool)
  | erased (old : Option String)
deriving DecidableEq

def perform (tree : Tree) : Edit → Except Fault (Reply × Tree)
  | .create kind text => .ok (.created tree.size, tree.create kind text)
  | .append parent child => (tree.append parent child).map fun edited => (.done, edited)
  | .prepend parent child => (tree.prepend parent child).map fun edited => (.done, edited)
  | .remove parent child =>
      (tree.remove parent child).map fun result => (.removed result.1, result.2)
  | .insertAbove id above => (tree.insertAbove id above).map fun edited => (.done, edited)
  | .setAttribute id key value =>
      (tree.setAttribute id key value).map fun edited => (.done, edited)
  | .removeAttribute id key =>
      (tree.removeAttribute id key).map fun result => (.erased result.1, result.2)

def apply (tree : Tree) (edit : Edit) : Except Fault Tree := (tree.perform edit).map Prod.snd

/-- An edit that faults is skipped. -/
def applyOrKeep (tree : Tree) (edit : Edit) : Tree :=
  match tree.apply edit with
  | .ok edited => edited
  | .error _ => tree

/-- The edits run in order, and those that fault are skipped. -/
def applyAll (tree : Tree) (edits : List Edit) : Tree := edits.foldl applyOrKeep tree

end GlslFormula.Tree
