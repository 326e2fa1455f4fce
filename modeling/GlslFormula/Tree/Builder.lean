/-
This file builds an expression tree from tokens, without looking ahead. Each token is planned as
edits of the tree that is built so far.
-/
import GlslFormula.Precedence
import GlslFormula.Tree.Edit
import GlslFormula.Tree.ParseError
import GlslFormula.Word

namespace GlslFormula

/-- The attribute that holds the rank of an operation. -/
def precedenceAttribute : String := "precedence"

inductive ScopeKind where
  | group
  | call
deriving DecidableEq

/-- New operators stay below the node of the innermost scope. -/
structure Scope where
  node : NodeId
  kind : ScopeKind
deriving DecidableEq

/-- The cursor is the node that was placed last. The scopes are stored with the innermost one
first, and the whole tree is the scope around all of them. -/
structure Builder where
  precedence : Precedence
  tree : Tree
  phase : ParsePhase
  cursor : NodeId
  scopes : List Scope
deriving DecidableEq

/-- A move holds the edits that a token asks for and where the builder stands after them. -/
structure Move where
  edits : List Tree.Edit
  phase : ParsePhase
  cursor : NodeId
  scopes : List Scope
deriving DecidableEq

namespace Builder

def start (precedence : Precedence) : Builder :=
  ⟨precedence, .empty, .expectValue, Tree.root, []⟩

/-- The node of the innermost scope bounds each climb. -/
def scopeNode (builder : Builder) : NodeId :=
  match builder.scopes with
  | [] => Tree.root
  | scope :: _ => scope.node

/-- An operation without a readable rank has the lowest one. -/
def rankOf (builder : Builder) (id : NodeId) : Nat :=
  match (builder.tree.attribute? id precedenceAttribute).bind readByte? with
  | some rank => rank
  | none => 0

theorem readByte?_rank (precedence : Precedence) (operator : Operator) :
    readByte? (toString (precedence.rank operator)) = some (precedence.rank operator) :=
  readByte?_toString (by cases precedence <;> cases operator <;> decide)

/-- The climb goes up to the nearest operation, the scope or the top. -/
def climbToOperation (builder : Builder) : (fuel : Nat) → NodeId → NodeId
  | 0, id => id
  | fuel + 1, id =>
      if id = builder.scopeNode ∨ builder.tree.isOperation id then id
      else match builder.tree.parent? id with
        | some parent => builder.climbToOperation fuel parent
        | none => id

/-- A value is attached here. -/
def attachPoint (builder : Builder) : NodeId :=
  builder.climbToOperation builder.tree.size builder.cursor

/-- The climb visits the operations above the cursor, innermost first, and stops at the scope or
at the first operation that binds looser. The last operation that it passes is the result. -/
def climbOver (builder : Builder) (incoming : Option Operator) :
    (fuel : Nat) → (point : NodeId) → (current : Option NodeId) → NodeId
  | 0, point, _ => point
  | _ + 1, point, none => point
  | fuel + 1, point, some id =>
      if id = builder.scopeNode then point
      else if builder.tree.isOperation id then
        if builder.precedence.mustClimb (builder.rankOf id) incoming then
          builder.climbOver incoming fuel id (builder.tree.parent? id)
        else point
      else builder.climbOver incoming fuel point (builder.tree.parent? id)

/-- This is the highest node that the incoming operation takes over. -/
def insertionPoint (builder : Builder) (incoming : Option Operator) : NodeId :=
  if builder.cursor = builder.scopeNode then builder.cursor
  else builder.climbOver incoming builder.tree.size builder.cursor
    (builder.tree.parent? builder.cursor)

/-- The next created node has this number. -/
def nextId (builder : Builder) : NodeId := builder.tree.size

def placeValue (builder : Builder) (kind : NodeKind) (text : String) : Move where
  edits := [.create kind text, .append builder.attachPoint builder.nextId]
  phase := .afterValue
  cursor := builder.nextId
  scopes := builder.scopes

def placeOperator (builder : Builder) (operator : Operator) : Move where
  edits :=
    [.create .operation operator.symbol,
      .setAttribute builder.nextId precedenceAttribute
        (toString (builder.precedence.rank operator)),
      .insertAbove (builder.insertionPoint (some operator)) builder.nextId]
  phase := .expectValue
  cursor := builder.nextId
  scopes := builder.scopes

def placeFunction (builder : Builder) (name : String) : Move where
  edits :=
    [.create .operation name,
      .setAttribute builder.nextId precedenceAttribute
        (toString builder.precedence.functionRank),
      .append (builder.insertionPoint none) builder.nextId]
  phase := .expectArguments
  cursor := builder.nextId
  scopes := ⟨builder.nextId, .call⟩ :: builder.scopes

/-- The builder stands elsewhere and the tree stays as it is. -/
def stand (phase : ParsePhase) (cursor : NodeId) (scopes : List Scope) : Move :=
  ⟨[], phase, cursor, scopes⟩

/-- A closed group leaves its own top node as the value just read. -/
def groupTop (builder : Builder) (scope : Scope) : NodeId :=
  match builder.tree.lastChild? scope.node with
  | some child => child
  | none => scope.node

def plan (builder : Builder) (token : Token) : Except ParseError Move :=
  match token.kind, builder.phase, builder.scopes with
  | .number, .expectValue, _ => .ok (builder.placeValue .number token.text)
  | .symbol, .expectValue, _ => .ok (builder.placeValue .symbol token.text)
  | .operator, .afterValue, _ =>
      match Operator.ofSymbol? token.text with
      | some operator => .ok (builder.placeOperator operator)
      | none => .error (.unknownOperator token.text token.span.start)
  | .implicitMultiply, .afterValue, _ => .ok (builder.placeOperator .mul)
  | .functionName, .expectValue, _ => .ok (builder.placeFunction token.text)
  | .functionArgsStart, .expectArguments, scopes =>
      .ok (stand .expectValue builder.cursor scopes)
  | .functionArgsEnd, .afterValue, ⟨node, .call⟩ :: outer => .ok (stand .afterValue node outer)
  | .argSeparator, .afterValue, ⟨node, .call⟩ :: outer =>
      .ok (stand .expectValue node (⟨node, .call⟩ :: outer))
  | .parenthesisOpen, .expectValue, scopes =>
      .ok (stand .expectValue builder.cursor (⟨builder.cursor, .group⟩ :: scopes))
  | .parenthesisClose, .afterValue, ⟨node, .group⟩ :: outer =>
      .ok (stand .afterValue (builder.groupTop ⟨node, .group⟩) outer)
  | _, phase, _ => .error (.unexpected token phase)

/-- The edits of a move never fault on a builder that was fed from the start. -/
def perform (builder : Builder) (move : Move) : Builder where
  precedence := builder.precedence
  tree := builder.tree.applyAll move.edits
  phase := move.phase
  cursor := move.cursor
  scopes := move.scopes

def feed (builder : Builder) (token : Token) : Except ParseError Builder :=
  (builder.plan token).map builder.perform

/-- The tokens are fed in order, up to the first one that is refused. -/
def feedAll (builder : Builder) : List Token → Except ParseError Builder
  | [] => .ok builder
  | token :: rest =>
      match builder.feed token with
      | .ok next => next.feedAll rest
      | .error error => .error error

/-- A complete tree ends after a value, with each scope closed. -/
def finish (builder : Builder) : Except ParseError Tree :=
  if builder.phase ≠ .afterValue then .error (.unexpectedEnd builder.phase)
  else if builder.scopes.isEmpty then .ok builder.tree
  else .error (.unclosedScope builder.scopes.length)

end Builder

/-- The tree of a token list, under one of the two precedence tables. -/
def Tree.ofTokens (precedence : Precedence) (tokens : List Token) : Except ParseError Tree :=
  match (Builder.start precedence).feedAll tokens with
  | .ok builder => builder.finish
  | .error error => .error error

end GlslFormula
