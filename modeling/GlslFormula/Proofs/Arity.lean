import GlslFormula.Proofs.Report
import GlslFormula.Proofs.Traversal

namespace GlslFormula

open Builder Grammar

namespace Token

/-- The node of a token has this many children. -/
def arity? (token : Token) (behind : List Token) : Option Nat :=
  match token.kind with
  | .number | .symbol => some 0
  | .operator | .implicitMultiply => some 2
  | .functionName => some (argumentCount behind)
  | .parenthesisOpen | .parenthesisClose | .functionArgsStart | .functionArgsEnd
  | .argSeparator => none

def arities : List Token → List Nat
  | [] => []
  | token :: behind => (token.arity? behind).toList ++ arities behind

end Token

namespace Expression

mutual

/-- The numbers of operands and arguments, in source order. -/
def arities : Expression → List Nat
  | .number _ => [0]
  | .symbol _ => [0]
  | .operator _ left right => left.arities ++ 2 :: right.arities
  | .call _ arguments => arguments.length :: aritiesAll arguments

def aritiesAll : List Expression → List Nat
  | [] => []
  | expression :: rest => expression.arities ++ aritiesAll rest

end

mutual

theorem length_arities (expression : Expression) : expression.arities.length = expression.size := by
  cases expression with
  | number text => rfl
  | symbol text => rfl
  | operator operator left right =>
      rw [arities, List.length_append, List.length_cons, left.length_arities, right.length_arities,
        size]
      omega
  | call name arguments =>
      rw [arities, List.length_cons, length_aritiesAll arguments, size, Nat.add_comm]

theorem length_aritiesAll (expressions : List Expression) :
    (aritiesAll expressions).length = sizeAll expressions := by
  cases expressions with
  | nil => rfl
  | cons expression rest =>
      rw [aritiesAll, List.length_append, expression.length_arities, length_aritiesAll rest,
        sizeAll]

end

theorem length_tops (start : Nat) (expressions : List Expression) :
    (tops start expressions).length = expressions.length := by
  induction expressions generalizing start with
  | nil => rfl
  | cons expression rest inductionHypothesis =>
      rw [tops, List.length_cons, List.length_cons, inductionHypothesis]

end Expression

namespace Tree

variable {precedence : Precedence} {tree : Tree}

def HasChildren (tree : Tree) (id : NodeId) (count : Nat) : Prop :=
  (tree.children id).length = count

theorem hasChildren_of_get? {id : NodeId} {node : Node} (found : tree.get? id = some node) :
    tree.HasChildren id node.children.length := by
  rw [HasChildren, children_of_get? found]

mutual

/-- The nodes of a held expression have as many children as the expression says. -/
theorem Holds.arities {parent start : NodeId} {expression : Expression}
    (held : tree.Holds precedence parent start expression) :
    Numbered tree.HasChildren start expression.arities := by
  cases expression with
  | number text => exact ⟨hasChildren_of_get? held, trivial⟩
  | symbol text => exact ⟨hasChildren_of_get? held, trivial⟩
  | operator operator left right =>
      obtain ⟨node, first, second⟩ := held
      rw [Expression.arities, numbered_append, left.length_arities]
      exact ⟨first.arities, hasChildren_of_get? node, second.arities⟩
  | call name arguments =>
      obtain ⟨node, inside⟩ := held
      have count := hasChildren_of_get? node
      rw [Node.operation, Expression.length_tops] at count
      exact ⟨count, inside.arities⟩

theorem HoldsAll.arities {parent start : NodeId} {expressions : List Expression}
    (held : tree.HoldsAll precedence parent start expressions) :
    Numbered tree.HasChildren start
      (Expression.aritiesAll expressions) := by
  cases expressions with
  | nil => trivial
  | cons expression rest =>
      rw [Expression.aritiesAll, numbered_append, expression.length_arities]
      exact ⟨held.1.arities, held.2.arities⟩

end

end Tree

/-- The arrangement of a chain keeps the order of its nodes. -/
theorem Link.arities_arrange (precedence : Precedence) (first : Expression) (links : List Link) :
    (arrange precedence first links).arities =
      first.arities ++ links.flatMap fun link => 2 :: link.operand.arities := by
  induction first, links using pivotInduction precedence with
  | single first => rw [arrange_nil, List.flatMap_nil, List.append_nil]
  | split first before link after chosen isTop left right =>
      rw [arrange_append first before link after chosen, Expression.arities, left, right,
        List.flatMap_append, List.flatMap_cons]
      simp

namespace Grammar

theorem Chain.arities_single (precedence : Precedence) (value : Value) :
    ((Chain.single value).expression precedence).arities =
      (value.expression precedence).arities := by
  rw [Chain.expression, Link.arities_arrange, Chain.first, Chain.links]
  simp

theorem Chain.arities_join (precedence : Precedence) (value : Value) (joint : Joint)
    (rest : Chain) :
    ((Chain.join value joint rest).expression precedence).arities =
      (value.expression precedence).arities ++ 2 :: (rest.expression precedence).arities := by
  rw [Chain.expression, Chain.expression, Link.arities_arrange, Link.arities_arrange,
    Chain.first, Chain.links, List.flatMap_cons, List.cons_append]

mutual

/-- The counts of a value stand where its tokens are. -/
theorem Value.arities (precedence : Precedence) (value : Value) {tokens : List Token}
    (known : Reads tokens value.terminals) (rest : List Token) :
    Token.arities (tokens ++ rest) =
      (value.expression precedence).arities ++ Token.arities rest := by
  cases value with
  | number text =>
      obtain ⟨token, rfl, terminal⟩ := Reads.single known
      simp [Token.arities, Token.arity?, Token.kind_of_terminal terminal, Value.expression,
        Expression.arities]
  | symbol text =>
      obtain ⟨token, rfl, terminal⟩ := Reads.single known
      simp [Token.arities, Token.arity?, Token.kind_of_terminal terminal, Value.expression,
        Expression.arities]
  | group inner =>
      obtain ⟨opening, others, rfl, first, remaining⟩ := Reads.uncons known
      obtain ⟨inside, closing, rfl, readInside, readClosing⟩ := Reads.split remaining
      obtain ⟨close, rfl, last⟩ := Reads.single readClosing
      have passed := inner.arities precedence readInside (close :: rest)
      simpa [Token.arities, Token.arity?, Token.kind_of_terminal first,
        Token.kind_of_terminal last, Value.expression, Chain.expression] using passed
  | call name arguments =>
      obtain ⟨function, others, rfl, first, remaining⟩ := Reads.uncons known
      obtain ⟨opening, tail, rfl, second, readTail⟩ := Reads.uncons remaining
      obtain ⟨inside, closing, rfl, readInside, readClosing⟩ := Reads.split readTail
      obtain ⟨close, rfl, last⟩ := Reads.single readClosing
      have passed := arguments.arities precedence readInside (close :: rest)
      have count := arguments.argumentCount opening rest readInside last
      rw [← arguments.length_expressions precedence] at count
      simp [Token.arities, Token.arity?, Token.kind_of_terminal first,
        Token.kind_of_terminal second, Token.kind_of_terminal last, Value.expression,
        Expression.arities, count, passed]

theorem Chain.arities (precedence : Precedence) (chain : Chain) {tokens : List Token}
    (known : Reads tokens chain.terminals) (rest : List Token) :
    Token.arities (tokens ++ rest) =
      (chain.expression precedence).arities ++ Token.arities rest := by
  cases chain with
  | single value =>
      rw [Chain.arities_single]
      exact value.arities precedence known rest
  | join value joint tail =>
      obtain ⟨before, others, rfl, readBefore, remaining⟩ := Reads.split known
      obtain ⟨between, after, rfl, terminal, readAfter⟩ := Reads.uncons remaining
      have second := tail.arities precedence readAfter rest
      have sign : Token.arities (between :: (after ++ rest)) =
          2 :: Token.arities (after ++ rest) := by
        rcases Token.kind_of_terminal terminal with kind | kind <;>
          simp [Token.arities, Token.arity?, kind]
      rw [List.append_assoc, value.arities precedence readBefore, List.cons_append, sign, second,
        Chain.arities_join]
      simp

theorem Arguments.arities (precedence : Precedence) (arguments : Arguments)
    {tokens : List Token} (known : Reads tokens arguments.terminals) (rest : List Token) :
    Token.arities (tokens ++ rest) =
      Expression.aritiesAll (arguments.expressions precedence) ++ Token.arities rest := by
  cases arguments with
  | last argument =>
      have passed := argument.arities precedence known rest
      rwa [Arguments.expressions, Expression.aritiesAll, Expression.aritiesAll, List.append_nil]
  | more argument tail =>
      obtain ⟨before, others, rfl, readBefore, remaining⟩ := Reads.split known
      obtain ⟨comma, after, rfl, terminal, readAfter⟩ := Reads.uncons remaining
      have second := tail.arities precedence readAfter rest
      have skipped : Token.arities (comma :: (after ++ rest)) =
          Token.arities (after ++ rest) := by
        simp [Token.arities, Token.arity?, Token.kind_of_terminal terminal]
      rw [List.append_assoc, argument.arities precedence readBefore, List.cons_append, skipped,
        second, Arguments.expressions, Expression.aritiesAll, List.append_assoc]
      rfl

end

end Grammar

namespace Token

variable {tokens closers behind : List Token} {token : Token}

/-- Closing brackets have no commas behind them. -/
theorem commas_closers (closes : ∀ token ∈ closers, token.kind.closes = true) (depth : Nat) :
    commas depth closers = 0 := by
  induction closers generalizing depth with
  | nil => rfl
  | cons token rest inductionHypothesis =>
      have further := inductionHypothesis fun other member =>
        closes other (List.mem_cons_of_mem token member)
      have first := closes token (List.mem_cons_self ..)
      cases kind : token.kind with
      | parenthesisClose | functionArgsEnd => cases depth <;> simp [commas, kind, further]
      | _ => simp [kind, TokenKind.closes] at first

theorem commas_append_closers (closes : ∀ token ∈ closers, token.kind.closes = true)
    (depth : Nat) (tokens : List Token) :
    commas depth (tokens ++ closers) = commas depth tokens := by
  induction tokens generalizing depth with
  | nil => exact commas_closers closes depth
  | cons token rest inductionHypothesis =>
      cases kind : token.kind <;> cases depth <;> simp [commas, kind, inductionHypothesis]

theorem argumentCount_append_closers (closes : ∀ token ∈ closers, token.kind.closes = true)
    (behind : List Token) : argumentCount (behind ++ closers) = argumentCount behind := by
  rw [argumentCount, argumentCount]
  cases behind with
  | nil =>
      rw [List.nil_append, commas_closers fun token member => closes token (List.mem_of_mem_drop member)]
      rfl
  | cons token rest =>
      rw [List.cons_append, List.drop_one, List.tail_cons, commas_append_closers closes]
      rfl

theorem isSome_arity? (token : Token) (behind : List Token) :
    (token.arity? behind).isSome = token.kind.makesNode := by
  rw [arity?]
  cases token.kind <;> rfl

/-- The counts are in the order of the tokens that make nodes. -/
theorem arities_getElem? (before : List Token) (makes : token.kind.makesNode = true) :
    (arities (before ++ token :: behind))[before.countP fun each => each.kind.makesNode]? =
      token.arity? behind := by
  induction before with
  | nil =>
      obtain ⟨count, known⟩ := Option.isSome_iff_exists.mp
        ((isSome_arity? token behind).trans makes)
      simp [arities, known]
  | cons first rest inductionHypothesis =>
      have same := isSome_arity? first (rest ++ token :: behind)
      cases known : first.arity? (rest ++ token :: behind) with
      | none =>
          rw [known] at same
          simpa [arities, known, ← same] using inductionHypothesis
      | some count =>
          rw [known] at same
          simpa [arities, known, ← same] using inductionHypothesis

end Token

namespace Builder

variable {precedence : Precedence} {builder fed : Builder} {token : Token} {tokens : List Token}

/-- Only tokens that make a node change the tree. -/
theorem feed_tree (success : builder.feed token = .ok fed)
    (bare : token.kind.makesNode = false) : fed.tree = builder.tree := by
  obtain ⟨precedence, tree, phase, cursor, scopes⟩ := builder
  obtain ⟨kind, text, span⟩ := token
  cases kind with
  | functionArgsEnd | argSeparator | parenthesisClose =>
      rcases scopes with _ | ⟨⟨node, _ | _⟩, outer⟩ <;> cases phase <;> cases success; rfl
  | functionArgsStart | parenthesisOpen => cases phase <;> cases success; rfl
  | _ => cases bare

theorem feedAll_tree (success : builder.feedAll tokens = .ok fed)
    (bare : ∀ token ∈ tokens, token.kind.makesNode = false) : fed.tree = builder.tree := by
  induction tokens generalizing builder with
  | nil =>
      cases success
      rfl
  | cons token rest inductionHypothesis =>
      rw [feedAll] at success
      cases result : builder.feed token with
      | error error => simp [result] at success
      | ok next =>
          rw [result] at success
          have first := feed_tree result (bare token (List.mem_cons_self ..))
          rw [← first]
          exact inductionHypothesis success
            fun other member => bare other (List.mem_cons_of_mem token member)

theorem closes_closing (kind : ScopeKind) :
    (Control.closing kind).token.kind.closes = true ∧
      (Control.closing kind).token.kind.makesNode = false := by
  cases kind <;> exact ⟨rfl, rfl⟩

/-- Behind a value closing brackets alone complete a formula, and its tree is there already. -/
theorem exists_closers (success : (start precedence).feedAll tokens = .ok builder)
    (phased : builder.phase = .afterValue) :
    ∃ closers : List Token, (∀ token ∈ closers, token.kind.closes = true) ∧
      Tree.ofTokens precedence (tokens ++ closers) = .ok builder.tree := by
  have reached : builder.control.run ((builder.scopes.map Scope.kind).map Control.closing) =
      some .done := by
    rw [control, phased]
    exact Control.run_closing _
  obtain ⟨final, finished, ended⟩ := builder.feedAll_of_run
    (Terminal.reads_token ((builder.scopes.map Scope.kind).map Control.closing)) reached
  have closing : ∀ token ∈ ((builder.scopes.map Scope.kind).map Control.closing).map
      Terminal.token, token.kind.closes = true ∧ token.kind.makesNode = false := by
    intro token member
    simp only [List.map_map, List.mem_map] at member
    obtain ⟨scope, -, rfl⟩ := member
    exact closes_closing scope.kind
  refine ⟨_, fun token member => (closing token member).1, ?_⟩
  rw [Tree.ofTokens, feedAll_append success, finished]
  apply (final.finish_ok_iff builder.tree).mpr
  exact ⟨ended, feedAll_tree finished fun token member => (closing token member).2⟩

/-- Behind a value each node has as many children as its token asks for. -/
theorem hasChildren_of_createdFor {id count : Nat} {behind : List Token}
    (created : CreatedFor precedence tokens id token behind)
    (phased : ((start precedence).feedOn tokens).phase = .afterValue)
    (known : token.arity? behind = some count) :
    ((start precedence).feedOn tokens).tree.HasChildren id count := by
  obtain ⟨before, split, rfl, makes⟩ := createdFor_iff.mp created
  obtain ⟨closers, closes, complete⟩ :=
    exists_closers (feedAll_accepted (start precedence) tokens) phased
  obtain ⟨chain, derived⟩ := (Tree.ofTokens_ok_iff precedence _).mp ⟨_, complete⟩
  obtain ⟨tree, success, filled⟩ := chain.ofTokens precedence derived
  obtain rfl := Except.ok.inj (success.symm.trans complete)
  rw [Chain.Derives, List.map_map] at derived
  have counts := chain.arities precedence derived []
  have held := filled.inside.arities
  rw [List.append_nil, split, List.append_assoc, List.cons_append, Token.arities,
    List.append_nil] at counts
  rw [← counts, numbered_iff] at held
  apply held
  rw [Token.arities_getElem? before makes, ← known]
  rw [Token.arity?, Token.arity?]
  cases token.kind <;> simp [Token.argumentCount_append_closers closes]

end Builder

end GlslFormula
