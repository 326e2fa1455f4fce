/-
This file defines the ordered expression tree. The nodes are numbered in the order of creation.
A child list is the owning link, and a parent is the link back.
-/

namespace GlslFormula

abbrev NodeId := Nat

def NodeId.text (id : NodeId) : String := "#" ++ toString id

inductive NodeKind where
  | root
  | number
  | symbol
  | operation
deriving DecidableEq

namespace NodeKind

def name : NodeKind → String
  | .root => "root"
  | .number => "number"
  | .symbol => "symbol"
  | .operation => "operation"

def all : List NodeKind := [.root, .number, .symbol, .operation]

def ofName? (name : String) : Option NodeKind :=
  all.find? fun kind => kind.name == name

end NodeKind

/-- Attributes keep the order of their first insertion. -/
abbrev Attributes := List (String × String)

namespace Attributes

def get? (attributes : Attributes) (key : String) : Option String :=
  List.lookup key attributes

/-- A known key keeps its place and gets the new value. A new key goes last. -/
def insert : Attributes → String → String → Attributes
  | [], key, value => [(key, value)]
  | entry :: rest, key, value =>
      if entry.1 = key then (key, value) :: rest
      else entry :: insert rest key value

/-- The other keys keep their order. -/
def erase (attributes : Attributes) (key : String) : Attributes :=
  attributes.eraseP fun entry => entry.1 == key

def byKey (attributes : Attributes) : Attributes :=
  attributes.mergeSort fun first second => decide (first.1 ≤ second.1)

@[simp] theorem byKey_nil : byKey [] = [] := List.mergeSort_nil

@[simp] theorem byKey_singleton (entry : String × String) : byKey [entry] = [entry] :=
  List.mergeSort_singleton entry

end Attributes

structure Node where
  kind : NodeKind
  text : String
  attributes : Attributes := []
  children : List NodeId := []
  parent : Option NodeId := none
deriving DecidableEq

/-- Detached nodes stay in the store but cannot be reached from the root. -/
structure Tree where
  nodes : Array Node
deriving DecidableEq

namespace Tree

def root : NodeId := 0

/-- This tree has only its root. -/
def empty : Tree := ⟨#[{ kind := .root, text := "" }]⟩

/-- The store size counts detached nodes too. -/
def size (tree : Tree) : Nat := tree.nodes.size

def get? (tree : Tree) (id : NodeId) : Option Node := tree.nodes[id]?

/-- A missing node has no parent. -/
def parent? (tree : Tree) (id : NodeId) : Option NodeId := (tree.get? id).bind Node.parent

/-- A missing node has no children. -/
def children (tree : Tree) (id : NodeId) : List NodeId :=
  match tree.get? id with
  | some node => node.children
  | none => []

def lastChild? (tree : Tree) (id : NodeId) : Option NodeId := (tree.children id).getLast?

def attribute? (tree : Tree) (id : NodeId) (key : String) : Option String :=
  (tree.get? id).bind fun node => node.attributes.get? key

def isOperation (tree : Tree) (id : NodeId) : Bool :=
  match tree.get? id with
  | some node => node.kind == .operation
  | none => false

def isEmpty (tree : Tree) : Bool := (tree.children root).isEmpty

/-- A change to a missing node leaves the tree as it is. -/
def modify (tree : Tree) (id : NodeId) (change : Node → Node) : Tree :=
  ⟨tree.nodes.modify id change⟩

/-- The search goes up from `current`, for at most `fuel` links. -/
def isOnPath (tree : Tree) (target : NodeId) : (fuel : Nat) → (current : Option NodeId) → Bool
  | 0, _ => false
  | _ + 1, none => false
  | fuel + 1, some id =>
      if id = target then true else tree.isOnPath target fuel (tree.parent? id)

/-- The node `ancestor` is a parent, a parent's parent, and so on, of `id`. A path without a
repeated node has at most `size` links. -/
def isAncestor (tree : Tree) (ancestor id : NodeId) : Bool :=
  tree.isOnPath ancestor tree.size (tree.parent? id)

end Tree

end GlslFormula
