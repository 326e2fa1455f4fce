import GlslFormula.Proofs.Division
import GlslFormula.Proofs.Refusal

namespace GlslFormula

open Grammar

/-- A token of this kind makes a node. -/
def TokenKind.makesNode : TokenKind → Bool
  | .number | .symbol | .operator | .implicitMultiply | .functionName => true
  | .parenthesisOpen | .parenthesisClose | .functionArgsStart | .functionArgsEnd
  | .argSeparator => false

namespace Token

/-- The root is there before all tokens. -/
def nextNode (before : List Token) : Nat :=
  1 + before.countP fun token => token.kind.makesNode

/-- Each bracket that the tokens open is closed in them, and none is closed before it opens. -/
def Balanced (tokens : List Token) : Prop :=
  opened tokens = closed tokens ∧
    ∀ start rest, tokens = start ++ rest → closed start ≤ opened start

/-- Parentheses open in front of an operand and close behind it. -/
structure Encloses (opens closes : List Token) : Prop where
  length : opens.length = closes.length
  opening : ∀ token ∈ opens, token.kind = .parenthesisOpen
  closing : ∀ token ∈ closes, token.kind = .parenthesisClose

end Token

/-- The next token makes the node with this number, if it makes one. -/
def Builder.Makes (precedence : Precedence) (before : List Token) (id : NodeId) : Prop :=
  ∃ builder, (start precedence).feedAll before = .ok builder ∧ builder.nextId = id

/-- The node with this number and all nodes below it were built from `part`, which stands behind
`before`. A call reaches from its name to the end of its arguments. An operator reaches from the
first token of its left operand to the last one of its right operand, with the parentheses
around each of them. -/
inductive Tree.BuiltFrom (precedence : Precedence) (tree : Tree) :
    (id : NodeId) → (before part : List Token) → Prop where
  | value {id : NodeId} {before : List Token} (token : Token)
      (kind : token.kind = .number ∨ token.kind = .symbol)
      (made : Builder.Makes precedence before id) :
      BuiltFrom precedence tree id before [token]
  | call {id : NodeId} {before : List Token} (name opening : Token) (inside : List Token)
      (closing : Token) (named : name.kind = .functionName)
      (opens : opening.kind = .functionArgsStart) (balanced : Token.Balanced inside)
      (closes : closing.kind = .functionArgsEnd)
      (made : Builder.Makes precedence before id) :
      BuiltFrom precedence tree id before (name :: opening :: (inside ++ [closing]))
  | operator {id leftId rightId : NodeId}
      {before leftOpens left leftCloses rightOpens right rightCloses : List Token}
      (sign : Token) (kind : sign.kind = .operator ∨ sign.kind = .implicitMultiply)
      (made : Builder.Makes precedence (before ++ (leftOpens ++ left ++ leftCloses)) id)
      (children : tree.children id = [leftId, rightId])
      (leftBuilt : BuiltFrom precedence tree leftId (before ++ leftOpens) left)
      (leftEnclosed : Token.Encloses leftOpens leftCloses)
      (rightBuilt : BuiltFrom precedence tree rightId
        (before ++ (leftOpens ++ left ++ leftCloses) ++ [sign] ++ rightOpens) right)
      (rightEnclosed : Token.Encloses rightOpens rightCloses) :
      BuiltFrom precedence tree id before
        (leftOpens ++ left ++ leftCloses ++ sign :: (rightOpens ++ right ++ rightCloses))

namespace Tree

variable {tree edited : Tree}

@[simp] theorem size_detach (tree : Tree) (parent child : NodeId) :
    (tree.detach parent child).size = tree.size := by
  rw [detach]
  split <;> simp

theorem size_adopt {parent child : NodeId} (success : tree.adopt parent child = .ok edited) :
    edited.size = tree.size := by
  simp only [adopt, bind, Except.bind, pure, Except.pure, throw, throwThe,
    MonadExceptOf.throw] at success
  repeat' split at success
  all_goals cases success <;> simp

theorem size_append {parent child : NodeId} (success : tree.append parent child = .ok edited) :
    edited.size = tree.size := by
  simp only [append, bind, Except.bind, pure, Except.pure] at success
  split at success
  · cases success
  · next adopted taken =>
      cases success
      rw [size_modify, size_adopt taken]

theorem size_insertAbove {id above : NodeId} (success : tree.insertAbove id above = .ok edited) :
    edited.size = tree.size := by
  simp only [insertAbove, bind, Except.bind, pure, Except.pure] at success
  repeat' split at success
  all_goals first
    | simpa using size_append success
    | cases success <;> simp

theorem size_setAttribute {id : NodeId} {key value : String}
    (success : tree.setAttribute id key value = .ok edited) : edited.size = tree.size := by
  simp only [setAttribute, bind, Except.bind, pure, Except.pure] at success
  split at success <;> cases success
  rw [size_modify]

@[simp] theorem size_applyOrKeep_create (tree : Tree) (kind : NodeKind) (text : String) :
    (tree.applyOrKeep (.create kind text)).size = tree.size + 1 :=
  size_create tree kind text

@[simp] theorem size_applyOrKeep_append (tree : Tree) (parent child : NodeId) :
    (tree.applyOrKeep (.append parent child)).size = tree.size := by
  rw [applyOrKeep, apply, perform]
  cases result : tree.append parent child with
  | ok edited => exact size_append result
  | error fault => rfl

@[simp] theorem size_applyOrKeep_insertAbove (tree : Tree) (id above : NodeId) :
    (tree.applyOrKeep (.insertAbove id above)).size = tree.size := by
  rw [applyOrKeep, apply, perform]
  cases result : tree.insertAbove id above with
  | ok edited => exact size_insertAbove result
  | error fault => rfl

@[simp] theorem size_applyOrKeep_setAttribute (tree : Tree) (id : NodeId) (key value : String) :
    (tree.applyOrKeep (.setAttribute id key value)).size = tree.size := by
  rw [applyOrKeep, apply, perform]
  cases result : tree.setAttribute id key value with
  | ok edited => exact size_setAttribute result
  | error fault => rfl

end Tree

namespace Builder

variable {precedence : Precedence} {builder fed : Builder} {id : NodeId}

/-- A token makes at most one node, and its kind says whether it does. -/
theorem feed_size {token : Token} (success : builder.feed token = .ok fed) :
    fed.tree.size = builder.tree.size + if token.kind.makesNode then 1 else 0 := by
  obtain ⟨precedence, tree, phase, cursor, scopes⟩ := builder
  obtain ⟨kind, text, span⟩ := token
  cases kind with
  | operator =>
      cases phase <;> cases same : Operator.ofSymbol? text <;>
        simp [feed, plan, same, Except.map] at success
      subst success
      simp [perform, placeOperator, Tree.applyAll, TokenKind.makesNode]
  | functionArgsEnd | argSeparator | parenthesisClose =>
      rcases scopes with _ | ⟨⟨node, _ | _⟩, outer⟩ <;> cases phase <;>
        simp [feed, plan, Except.map] at success
      subst success
      rfl
  | _ =>
      cases phase <;> simp [feed, plan, Except.map] at success
      subst success
      simp [perform, placeOperator, placeValue, placeFunction, stand, Tree.applyAll,
        TokenKind.makesNode]

theorem feedAll_size {tokens : List Token} (success : builder.feedAll tokens = .ok fed) :
    fed.tree.size =
      builder.tree.size + tokens.countP fun token => token.kind.makesNode := by
  induction tokens generalizing builder with
  | nil =>
      cases success
      rfl
  | cons token tokens inductionHypothesis =>
      rw [feedAll] at success
      cases result : builder.feed token with
      | error error => simp [result] at success
      | ok next =>
          rw [result] at success
          rw [inductionHypothesis success, feed_size result, List.countP_cons]
          omega

/-- The nodes are numbered in the order of the tokens that make them. -/
theorem Makes.eq_nextNode {before : List Token} (made : Makes precedence before id) :
    id = Token.nextNode before := by
  obtain ⟨builder, success, rfl⟩ := made
  rw [nextId, feedAll_size success]
  rfl

theorem makes_nextNode (precedence : Precedence) {before : List Token}
    (viable : Token.Viable before) : Makes precedence before (Token.nextNode before) := by
  obtain ⟨builder, success⟩ := (feedAll_ok_iff_viable precedence before).mpr viable
  have made : Makes precedence before builder.nextId := ⟨builder, success, rfl⟩
  rwa [made.eq_nextNode] at made

end Builder

/-- A list has only one cut where neither side reaches over the other. -/
theorem Token.split_eq {before other after rest : List Token} {token second : Token}
    (same : before ++ token :: after = other ++ second :: rest)
    (notSooner : ¬ before ++ [token] <+: other) (notLater : ¬ other ++ [second] <+: before) :
    before = other ∧ token = second ∧ after = rest := by
  rcases List.append_eq_append_iff.mp same with ⟨between, rfl, tail⟩ | ⟨between, rfl, tail⟩
  · cases between with
    | nil => simpa using tail
    | cons first between =>
        obtain ⟨rfl, -⟩ := List.cons.inj tail
        exact absurd (by simp) notSooner
  · cases between with
    | nil => simpa [eq_comm] using tail
    | cons first between =>
        obtain ⟨rfl, -⟩ := List.cons.inj tail
        exact absurd (by simp) notLater

/-- A node is made by only one token of a list. -/
theorem Builder.Makes.split_eq {precedence : Precedence} {id : NodeId}
    {before other after rest : List Token} {token second : Token}
    (made : Makes precedence before id) (otherMade : Makes precedence other id)
    (makes : token.kind.makesNode = true) (otherMakes : second.kind.makesNode = true)
    (same : before ++ token :: after = other ++ second :: rest) :
    before = other ∧ token = second ∧ after = rest := by
  have sameNext := made.eq_nextNode.symm.trans otherMade.eq_nextNode
  simp only [Token.nextNode, Nat.add_left_cancel_iff] at sameNext
  apply Token.split_eq same
  · rintro ⟨between, rfl⟩
    simp [List.countP_append, makes] at sameNext
  · rintro ⟨between, rfl⟩
    simp [List.countP_append, otherMakes] at sameNext

/-- An open list is closed by only one token. -/
theorem Token.Balanced.split_eq {inside other after rest : List Token} {closing last : Token}
    (balanced : Balanced inside) (otherBalanced : Balanced other)
    (closes : closing.kind = .functionArgsEnd) (otherCloses : last.kind = .functionArgsEnd)
    (same : inside ++ closing :: after = other ++ last :: rest) :
    inside = other ∧ closing = last ∧ after = rest := by
  apply Token.split_eq same
  · rintro ⟨between, rfl⟩
    have bound := otherBalanced.2 (inside ++ [closing]) between rfl
    have even := balanced.1
    simp [opened, closed, closes, TokenKind.opens, TokenKind.closes] at bound even
    omega
  · rintro ⟨between, rfl⟩
    have bound := balanced.2 (other ++ [last]) between rfl
    have even := otherBalanced.1
    simp [opened, closed, otherCloses, TokenKind.opens, TokenKind.closes] at bound even
    omega

theorem TokenKind.makesNode_of_value {kind : TokenKind} (value : kind = .number ∨ kind = .symbol) :
    kind.makesNode = true := by
  rcases value with rfl | rfl <;> rfl

theorem TokenKind.makesNode_of_sign {kind : TokenKind}
    (sign : kind = .operator ∨ kind = .implicitMultiply) : kind.makesNode = true := by
  rcases sign with rfl | rfl <;> rfl

/-- The tokens that a node was built from have only one place in a list. -/
theorem Tree.BuiltFrom.unique {precedence : Precedence} {tree : Tree} {id : NodeId}
    {before part after other piece rest : List Token}
    (built : tree.BuiltFrom precedence id before part)
    (otherBuilt : tree.BuiltFrom precedence id other piece)
    (same : before ++ part ++ after = other ++ piece ++ rest) :
    before = other ∧ part = piece ∧ after = rest := by
  induction built generalizing other piece after rest with
  | value token kind made =>
      have makes := TokenKind.makesNode_of_value kind
      cases otherBuilt with
      | value second otherKind otherMade =>
          obtain ⟨rfl, rfl, rfl⟩ := made.split_eq otherMade makes
            (TokenKind.makesNode_of_value otherKind) (by simpa using same)
          exact ⟨rfl, rfl, rfl⟩
      | call name opening inside closing named opens balanced closes otherMade =>
          obtain ⟨-, rfl, -⟩ := made.split_eq otherMade makes (by rw [named]; rfl)
            (by simpa using same)
          simp [named] at kind
      | operator sign otherKind otherMade =>
          obtain ⟨-, rfl, -⟩ := made.split_eq otherMade makes
            (TokenKind.makesNode_of_sign otherKind) (by simpa using same)
          rcases otherKind with otherKind | otherKind <;> simp [otherKind] at kind
  | call name opening inside closing named opens balanced closes made =>
      have makes : name.kind.makesNode = true := by rw [named]; rfl
      cases otherBuilt with
      | value second otherKind otherMade =>
          obtain ⟨-, rfl, -⟩ := made.split_eq otherMade makes
            (TokenKind.makesNode_of_value otherKind) (by simpa using same)
          simp [named] at otherKind
      | call second _ otherInside last otherNamed _ otherBalanced otherCloses otherMade =>
          obtain ⟨rfl, rfl, tail⟩ := made.split_eq otherMade makes (by rw [otherNamed]; rfl)
            (by simpa using same)
          obtain ⟨rfl, arguments⟩ := List.cons.inj tail
          obtain ⟨rfl, rfl, rfl⟩ := balanced.split_eq otherBalanced closes otherCloses arguments
          exact ⟨rfl, rfl, rfl⟩
      | operator sign otherKind otherMade =>
          obtain ⟨-, rfl, -⟩ := made.split_eq otherMade makes
            (TokenKind.makesNode_of_sign otherKind) (by simpa using same)
          simp [named] at otherKind
  | operator sign kind made children leftBuilt leftEnclosed rightBuilt rightEnclosed left right =>
      have makes := TokenKind.makesNode_of_sign kind
      cases otherBuilt with
      | value second otherKind otherMade =>
          obtain ⟨-, rfl, -⟩ := made.split_eq otherMade makes
            (TokenKind.makesNode_of_value otherKind) (by simpa using same)
          rcases otherKind with otherKind | otherKind <;> simp [otherKind] at kind
      | call name opening inside closing named opens balanced closes otherMade =>
          obtain ⟨-, rfl, -⟩ := made.split_eq otherMade makes (by rw [named]; rfl)
            (by simpa using same)
          simp [named] at kind
      | operator second otherKind otherMade otherChildren otherLeft otherLeftEnclosed otherRight
          otherRightEnclosed =>
          obtain ⟨sides, rfl, tails⟩ := made.split_eq otherMade makes
            (TokenKind.makesNode_of_sign otherKind) (by simpa using same)
          rw [children] at otherChildren
          obtain ⟨rfl, others⟩ := List.cons.inj otherChildren
          obtain ⟨rfl, -⟩ := List.cons.inj others
          -- The operands have the same places, so as many parentheses open around each of them.
          obtain ⟨leftStarts, rfl, rfl⟩ := left otherLeft (by simpa using sides)
          obtain ⟨rfl, rfl⟩ := List.append_inj' leftStarts
            (leftEnclosed.length.trans otherLeftEnclosed.length.symm)
          obtain ⟨rightStarts, rfl, rightEnds⟩ := right otherRight (by simpa using tails)
          obtain rfl := List.append_cancel_left rightStarts
          obtain ⟨rfl, rfl⟩ := List.append_inj rightEnds
            (rightEnclosed.length.symm.trans otherRightEnclosed.length)
          exact ⟨rfl, rfl, rfl⟩

namespace Token

theorem Viable.of_append {first second : List Token} (viable : Viable (first ++ second)) :
    Viable first := by
  obtain ⟨more, derivable⟩ := viable
  rw [List.append_assoc] at derivable
  exact ⟨second ++ more, derivable⟩

/-- The terminal of a token fixes its kind. -/
theorem kind_eq {token : Token} {terminal : Terminal}
    (known : token.lexeme.terminal? = some terminal) : token.kind = terminal.token.kind := by
  obtain ⟨kind, text, span⟩ := token
  cases kind with
  | operator =>
      obtain ⟨operator, -, rfl⟩ := Option.map_eq_some_iff.mp known
      rfl
  | _ =>
      cases known
      rfl

theorem makesNode_eq {token : Token} {terminal : Terminal}
    (known : token.lexeme.terminal? = some terminal) :
    token.kind.makesNode = terminal.hasNode := by
  rw [kind_eq known]
  cases terminal with
  | joint joint => cases joint <;> rfl
  | _ => rfl

/-- The terminals of the tokens say how many nodes they make. -/
theorem nextNode_append {before tokens : List Token} {terminals : List Terminal}
    (known : Builder.Reads tokens terminals) :
    nextNode (before ++ tokens) = nextNode before + terminals.countP Terminal.hasNode := by
  have counted : tokens.countP (fun token => token.kind.makesNode) =
      terminals.countP Terminal.hasNode := by
    induction terminals generalizing tokens with
    | nil =>
        rw [List.map_eq_nil_iff.mp known]
        rfl
    | cons terminal terminals inductionHypothesis =>
        obtain ⟨token, rest, rfl, first, others⟩ := known.uncons
        rw [List.countP_cons, List.countP_cons, inductionHypothesis others, makesNode_eq first]
  rw [nextNode, nextNode, List.countP_append, counted, Nat.add_assoc]

theorem Balanced.append {first second : List Token} (front : Balanced first)
    (back : Balanced second) : Balanced (first ++ second) := by
  obtain ⟨frontEven, frontBound⟩ := front
  obtain ⟨backEven, backBound⟩ := back
  constructor
  · rw [opened, closed, List.countP_append, List.countP_append]
    exact congrArg₂ (· + ·) frontEven backEven
  · intro start rest split
    rcases List.append_eq_append_iff.mp split with ⟨between, rfl, tail⟩ | ⟨between, rfl, -⟩
    · have bound := backBound between rest tail
      simp only [opened, closed, List.countP_append] at frontEven bound ⊢
      omega
    · exact frontBound start between rfl

theorem balanced_singleton {token : Token}
    (plain : token.kind.opens = false ∧ token.kind.closes = false) : Balanced [token] := by
  constructor
  · simp [opened, closed, plain]
  · intro start rest split
    rcases List.singleton_eq_append_iff.mp split with ⟨rfl, -⟩ | ⟨rfl, -⟩
    · exact Nat.le_refl 0
    · simp [opened, closed, plain]

theorem Balanced.enclose {inside : List Token} {opening closing : Token}
    (balanced : Balanced inside)
    (opens : opening.kind.opens = true ∧ opening.kind.closes = false)
    (closes : closing.kind.opens = false ∧ closing.kind.closes = true) :
    Balanced (opening :: (inside ++ [closing])) := by
  obtain ⟨even, bound⟩ := balanced
  constructor
  · simp only [opened, closed] at even ⊢
    simp [List.countP_append, opens, closes, even]
  · intro start rest split
    cases start with
    | nil => exact Nat.le_refl 0
    | cons first start =>
        obtain ⟨rfl, others⟩ := List.cons.inj split
        have atMostOne : closed start ≤ opened start + 1 := by
          rcases List.append_eq_append_iff.mp others with ⟨between, rfl, tail⟩ | ⟨between, rfl, -⟩
          · have short := congrArg List.length tail
            have few : closed between ≤ between.length := List.countP_le_length
            simp only [opened, closed, List.countP_append, List.length_append,
              List.length_singleton] at even short few ⊢
            omega
          · exact Nat.le_succ_of_le (bound start between rfl)
        simpa [opened, closed, opens] using atMostOne

end Token

namespace Grammar

open Builder Token

mutual

/-- The brackets of a value are balanced. -/
theorem Value.balanced (value : Value) {tokens : List Token}
    (known : Reads tokens value.terminals) : Balanced tokens := by
  cases value with
  | number text =>
      obtain ⟨token, rfl, first⟩ := Reads.single known
      exact balanced_singleton (by rw [kind_eq first]; exact ⟨rfl, rfl⟩)
  | symbol text =>
      obtain ⟨token, rfl, first⟩ := Reads.single known
      exact balanced_singleton (by rw [kind_eq first]; exact ⟨rfl, rfl⟩)
  | group inner =>
      obtain ⟨opening, rest, rfl, opens, others⟩ := Reads.uncons known
      obtain ⟨inside, closing, rfl, readInside, readClosing⟩ := Reads.split others
      obtain ⟨last, rfl, closes⟩ := Reads.single readClosing
      exact (inner.balanced readInside).enclose (by rw [kind_eq opens]; exact ⟨rfl, rfl⟩)
        (by rw [kind_eq closes]; exact ⟨rfl, rfl⟩)
  | call name arguments =>
      obtain ⟨named, tail, rfl, isName, rest⟩ := Reads.uncons known
      obtain ⟨opening, rest, rfl, opens, others⟩ := Reads.uncons rest
      obtain ⟨inside, closing, rfl, readInside, readClosing⟩ := Reads.split others
      obtain ⟨last, rfl, closes⟩ := Reads.single readClosing
      have front : Balanced [named] :=
        balanced_singleton (by rw [kind_eq isName]; exact ⟨rfl, rfl⟩)
      exact front.append <| (arguments.balanced readInside).enclose
        (by rw [kind_eq opens]; exact ⟨rfl, rfl⟩) (by rw [kind_eq closes]; exact ⟨rfl, rfl⟩)

theorem Chain.balanced (chain : Chain) {tokens : List Token}
    (known : Reads tokens chain.terminals) : Balanced tokens := by
  cases chain with
  | single value => exact value.balanced known
  | join value joint rest =>
      obtain ⟨before, after, rfl, readValue, others⟩ := Reads.split known
      obtain ⟨token, tail, rfl, sign, readRest⟩ := Reads.uncons others
      have middle : Balanced [token] := by
        apply balanced_singleton
        rw [kind_eq sign]
        cases joint <;> exact ⟨rfl, rfl⟩
      exact (value.balanced readValue).append (middle.append (rest.balanced readRest))

theorem Arguments.balanced (arguments : Arguments) {tokens : List Token}
    (known : Reads tokens arguments.terminals) : Balanced tokens := by
  cases arguments with
  | last argument => exact argument.balanced known
  | more argument rest =>
      obtain ⟨before, after, rfl, readFirst, others⟩ := Reads.split known
      obtain ⟨token, tail, rfl, comma, readRest⟩ := Reads.uncons others
      have middle : Balanced [token] :=
        balanced_singleton (by rw [kind_eq comma]; exact ⟨rfl, rfl⟩)
      exact (argument.balanced readFirst).append (middle.append (rest.balanced readRest))

end

end Grammar

end GlslFormula
