import GlslFormula.Shader.Table
import GlslFormula.Tree
import GlslFormula.Worklist

namespace GlslFormula.Shader

inductive GenerateError where
  | topLevelCount (found : Nat)
  | unknownSymbol (name : String)
  | unknownOperation (name : String)
  | arityMismatch (name : String) (expected found : Nat)
  | malformedNode (kind : NodeKind) (id : NodeId)
deriving DecidableEq

namespace GenerateError

def message : GenerateError → String
  | .topLevelCount found =>
      "expected exactly one top-level expression, found " ++ toString found
  | .unknownSymbol name => "unknown symbol \"" ++ name ++ "\""
  | .unknownOperation name => "unknown operator or function \"" ++ name ++ "\""
  | .arityMismatch name expected found =>
      "\"" ++ name ++ "\" expects " ++ toString expected ++ " argument(s), found " ++
        toString found
  | .malformedNode kind id =>
      "malformed expression tree: unexpected " ++ kind.name ++ " node " ++ NodeId.text id

def code : GenerateError → String
  | .topLevelCount _ => "E2001"
  | .unknownSymbol _ => "E2002"
  | .unknownOperation _ => "E2003"
  | .arityMismatch .. => "E2004"
  | .malformedNode .. => "E2005"

end GenerateError

/-- Pending text of an expression. -/
inductive Item where
  | node (id : NodeId)
  | separator
  | close

/-- The arguments are separated by commas. -/
def argumentItems : List NodeId → List Item
  | [] => []
  | [id] => [.node id]
  | id :: rest => .node id :: .separator :: argumentItems rest

/-- A node's own check comes before those of its children. The children of a number or a symbol
are not written. -/
def visitNode (written : String) (id : NodeId) (node : Node) :
    Except GenerateError (String × List Item) :=
  match node.kind with
  | .number => .ok (written ++ node.text, [])
  | .symbol =>
      match symbol? node.text with
      | some constant => .ok (written ++ constant, [])
      | none => .error (.unknownSymbol node.text)
  | .operation =>
      match operation? node.text with
      | some target =>
          if node.children.length = target.arity then
            .ok (written ++ target.name ++ "(", argumentItems node.children ++ [.close])
          else .error (.arityMismatch node.text target.arity node.children.length)
      | none => .error (.unknownOperation node.text)
  | .root => .error (.malformedNode .root id)

def visit (tree : Tree) (written : String) : Item → Except GenerateError (String × List Item)
  | .node id =>
      match tree.get? id with
      | some node => visitNode written id node
      | none => .ok (written, [])
  | .separator => .ok (written ++ ", ", [])
  | .close => .ok (written ++ ")", [])

/-- The tree has exactly one top-level expression. Each reachable node gives at most three
items. -/
def generate (tree : Tree) : Except GenerateError String :=
  match tree.children Tree.root with
  | [top] => Worklist.fold (visit tree) (3 * tree.size) [.node top] ""
  | top => .error (.topLevelCount top.length)

end GlslFormula.Shader
