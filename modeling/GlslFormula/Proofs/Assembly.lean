import GlslFormula.Proofs.Control
import GlslFormula.Proofs.Placement

namespace GlslFormula

open Grammar

namespace Builder

/-- The builder needs a value in the context, or the argument list of a call that was named. -/
structure Waits (precedence : Precedence) (phase : ParsePhase) (builder : Builder)
    (context : Context) : Prop where
  ranked : builder.precedence = precedence
  built : builder.tree.Awaits precedence context
  phased : builder.phase = phase
  placed : builder.cursor = context.node
  nested : builder.scopes = context.scopes

/-- The builder has read a value in the context. -/
structure Reaches (precedence : Precedence) (builder : Builder) (context : Context)
    (value : Expression) : Prop where
  ranked : builder.precedence = precedence
  built : builder.tree.Fills precedence context value
  phased : builder.phase = .afterValue
  placed : builder.cursor = value.top context.next
  nested : builder.scopes = context.scopes

theorem start_waits (precedence : Precedence) :
    (start precedence).Waits precedence .expectValue .whole :=
  ⟨rfl, ⟨rfl, rfl⟩, rfl, rfl, rfl⟩

variable {precedence : Precedence} {builder : Builder} {context : Context}

theorem scopeNode_eq (nested : builder.scopes = context.scopes) :
    builder.scopeNode = context.scopeNode := by
  induction context with
  | operand operator left outer inductionHypothesis => exact inductionHypothesis nested
  | _ => rw [scopeNode, nested]; rfl

/-- A pending operator is an operation with its rank, inside the innermost scope. -/
theorem operand_node {operator : Operator} {left : Expression} {outer : Context} {hole : List Nat}
    (around : builder.tree.Surrounds precedence (.operand operator left outer) hole)
    (nested : builder.scopes = outer.scopes) :
    outer.next + left.size ≠ builder.scopeNode ∧
      builder.tree.isOperation (outer.next + left.size) = true ∧
      builder.rankOf (outer.next + left.size) = precedence.rank operator ∧
      builder.tree.parent? (outer.next + left.size) = some outer.node := by
  have bound := outer.scopeNode_lt_next
  rw [scopeNode_eq nested, Tree.isOperation, rankOf, Tree.attribute?, Tree.parent?, around.1]
  refine ⟨by omega, rfl, ?_, rfl⟩
  simp only [Node.operation, Attributes.get?, List.lookup_cons_self, Option.bind_some,
    readByte?_rank]

/-- A waiting builder puts a value below its cursor. -/
theorem Waits.attachPoint_eq {phase : ParsePhase}
    (waits : builder.Waits precedence phase context) : builder.attachPoint = context.node := by
  have stops : context.node = builder.scopeNode ∨
      builder.tree.isOperation context.node = true := by
    cases context with
    | operand operator left outer =>
        exact .inr (operand_node waits.built.around waits.nested).2.1
    | _ => exact .inl (scopeNode_eq waits.nested).symm
  rw [attachPoint, waits.placed]
  cases builder.tree.size with
  | zero => rfl
  | succ fuel => rw [climbToOperation, if_pos stops]

/-- A call never takes over an operator. -/
theorem mustClimb_none (precedence : Precedence) (operator : Operator) :
    precedence.mustClimb (precedence.rank operator) none = false := by
  cases precedence <;> cases operator <;> rfl

theorem climbOver_none {hole : List Nat} (ranked : builder.precedence = precedence)
    (around : builder.tree.Surrounds precedence context hole)
    (nested : builder.scopes = context.scopes) (fuel point : Nat) :
    builder.climbOver none fuel point (some context.node) = point := by
  cases fuel with
  | zero => rfl
  | succ fuel =>
      rw [climbOver]
      cases context with
      | operand operator left outer =>
          obtain ⟨inner, found, rank, above⟩ := operand_node around nested
          rw [Context.node, if_neg inner, if_pos found, rank, ranked, mustClimb_none]
          rfl
      | _ => exact if_pos (scopeNode_eq nested).symm

/-- A waiting builder puts a call below its cursor too. -/
theorem Waits.insertionPoint_none {phase : ParsePhase}
    (waits : builder.Waits precedence phase context) :
    builder.insertionPoint none = context.node := by
  rw [insertionPoint, waits.placed]
  split
  case isTrue => rfl
  case isFalse inner =>
    cases context with
    | operand operator left outer =>
        obtain ⟨_, _, _, above⟩ := operand_node waits.built.around waits.nested
        rw [Context.node, above]
        exact climbOver_none waits.ranked waits.built.around.2.2 waits.nested _ _
    | _ => exact absurd (scopeNode_eq waits.nested).symm inner

/-- The climb over the tree is the climb over the context. -/
theorem climbOver_eq {value : Expression} (incoming : Operator) (fuel : Nat)
    (ranked : builder.precedence = precedence)
    (filled : builder.tree.Fills precedence context value)
    (nested : builder.scopes = context.scopes) (enough : context.next ≤ fuel) :
    builder.climbOver (some incoming) fuel (value.top context.next) (some context.node) =
      (context.climb precedence incoming value).2.top
        (context.climb precedence incoming value).1.next := by
  have positive := context.node_lt_next
  obtain ⟨fuel, rfl⟩ : ∃ less, fuel = less + 1 := ⟨fuel - 1, by omega⟩
  induction context generalizing fuel value with
  | operand operator left outer inductionHypothesis =>
      obtain ⟨inner, found, rank, above⟩ := operand_node filled.around nested
      rw [climbOver, Context.climb, Context.node, if_neg inner, if_pos found, rank, ranked, above]
      split
      · rw [Context.next] at enough
        have below := outer.node_lt_next
        obtain ⟨fuel, rfl⟩ : ∃ less, fuel = less + 1 := ⟨fuel - 1, by omega⟩
        exact inductionHypothesis (Tree.fills_operand_iff.mp filled) nested below fuel (by omega)
      · rfl
  | _ =>
      rw [climbOver]
      exact if_pos (scopeNode_eq nested).symm

/-- The insertion point of an operator is the top of all that it takes over. -/
theorem Reaches.insertionPoint_some {value : Expression}
    (reached : builder.Reaches precedence context value) (incoming : Operator) :
    builder.insertionPoint (some incoming) =
      (context.climb precedence incoming value).2.top
        (context.climb precedence incoming value).1.next := by
  obtain ⟨node, found, linked⟩ := reached.built.inside.parent_top
  have outside : value.top context.next ≠ builder.scopeNode := by
    have lower := value.le_top context.next
    have upper := context.scopeNode_lt_next
    rw [scopeNode_eq reached.nested]
    omega
  have above : builder.tree.parent? (value.top context.next) = some context.node := by
    rw [Tree.parent?, found]
    exact linked
  rw [insertionPoint, reached.placed, if_neg outside, above]
  apply climbOver_eq incoming _ reached.ranked reached.built reached.nested
  rw [reached.built.size]
  omega

variable {token : Token} {text : String}

theorem feed_eq {move : Move} (planned : builder.plan token = .ok move) :
    builder.feed token = .ok (builder.perform move) := by
  rw [feed, planned]
  rfl

/-- A number or a symbol fills the context. -/
theorem Waits.placeValue {kind : NodeKind} {word : String} {value : Expression}
    (waits : builder.Waits precedence .expectValue context)
    (single : value.size = 1) (first : value.top context.next = context.next)
    (held : ∀ tree : Tree,
      tree.get? context.next = some { kind, text := word, parent := some context.node } →
        tree.Holds precedence context.node context.next value) :
    (builder.perform (builder.placeValue kind word)).Reaches precedence context value := by
  have same : ∀ id : Nat, id ≠ builder.tree.size →
      (builder.tree.create kind word).get? id = builder.tree.get? id := by
    intro id different
    rw [Tree.get?_create, if_neg different]
  have last : (builder.tree.create kind word).get? builder.tree.size =
      some { kind, text := word } := by
    rw [Tree.get?_create, if_pos rfl]
  obtain ⟨placed, success, around, found, size⟩ := waits.built.append same last rfl
  have edited : builder.tree.applyAll (builder.placeValue kind word).edits = placed := by
    simp [Builder.placeValue, waits.attachPoint_eq, nextId, Tree.applyAll, Tree.applyOrKeep,
      Tree.apply, Tree.perform, success, Except.map]
  refine ⟨waits.ranked, ?_, rfl, ?_, waits.nested⟩
  · rw [perform, edited]
    refine ⟨?_, held placed found, ?_⟩
    · rw [first]
      exact around
    · rw [size, Tree.size_create, waits.built.size, single]
  · rw [first]
    exact waits.built.size

theorem Waits.number (waits : builder.Waits precedence .expectValue context)
    (known : token.lexeme.terminal? = some (.number text)) :
    ∃ fed, builder.feed token = .ok fed ∧ fed.Reaches precedence context (.number text) := by
  obtain ⟨kind, word, span⟩ := token
  cases kind <;> simp [Token.lexeme, Lexeme.terminal?] at known
  subst known
  refine ⟨_, feed_eq (by simp only [plan, waits.phased]; rfl), ?_⟩
  exact waits.placeValue rfl rfl (fun _ found => found)

theorem Waits.symbol (waits : builder.Waits precedence .expectValue context)
    (known : token.lexeme.terminal? = some (.symbol text)) :
    ∃ fed, builder.feed token = .ok fed ∧ fed.Reaches precedence context (.symbol text) := by
  obtain ⟨kind, word, span⟩ := token
  cases kind <;> simp [Token.lexeme, Lexeme.terminal?] at known
  subst known
  refine ⟨_, feed_eq (by simp only [plan, waits.phased]; rfl), ?_⟩
  exact waits.placeValue rfl rfl (fun _ found => found)

/-- An opening parenthesis leaves the tree as it is. -/
theorem Waits.groupOpen (waits : builder.Waits precedence .expectValue context)
    (known : token.lexeme.terminal? = some .groupOpen) :
    ∃ fed, builder.feed token = .ok fed ∧
      fed.Waits precedence .expectValue (.group context) := by
  obtain ⟨kind, word, span⟩ := token
  cases kind <;> simp [Token.lexeme, Lexeme.terminal?] at known
  refine ⟨_, feed_eq (by simp only [plan, waits.phased]; rfl), ?_⟩
  refine ⟨waits.ranked, Tree.awaits_group_iff.mpr waits.built, rfl, waits.placed, ?_⟩
  simp [perform, stand, Context.scopes, waits.placed, waits.nested]

/-- A function name opens a call without arguments. -/
theorem Waits.name (waits : builder.Waits precedence .expectValue context)
    (known : token.lexeme.terminal? = some (.name text)) :
    ∃ fed, builder.feed token = .ok fed ∧
      fed.Waits precedence .expectArguments (.argument text [] context) := by
  obtain ⟨kind, word, span⟩ := token
  cases kind <;> simp [Token.lexeme, Lexeme.terminal?] at known
  subst known
  obtain ⟨placed, success, around, found, size⟩ := waits.built.append
    (fun id different => Tree.get?_newOperation_ne different)
    (Tree.get?_newOperation_self builder.tree word precedence.functionRank) rfl
  have same : builder.tree.applyAll (builder.placeFunction word).edits = placed := by
    rw [placeFunction, nextId, Tree.applyAll_newOperation, waits.ranked, waits.insertionPoint_none]
    simp [Tree.applyAll, Tree.applyOrKeep, Tree.apply, Tree.perform, success, Except.map]
  refine ⟨_, feed_eq (by simp only [plan, waits.phased]; rfl), ?_⟩
  refine ⟨waits.ranked, ?_, rfl, waits.built.size, ?_⟩
  · rw [perform, same]
    refine ⟨⟨found, trivial, around⟩, ?_⟩
    rw [size, Tree.size_newOperation, waits.built.size]
    rfl
  · simp [perform, placeFunction, nextId, Context.scopes, waits.built.size, waits.nested]

/-- The start of an argument list leaves the tree as it is. -/
theorem Waits.argumentsOpen (waits : builder.Waits precedence .expectArguments context)
    (known : token.lexeme.terminal? = some .argumentsOpen) :
    ∃ fed, builder.feed token = .ok fed ∧ fed.Waits precedence .expectValue context := by
  obtain ⟨kind, word, span⟩ := token
  cases kind <;> simp [Token.lexeme, Lexeme.terminal?] at known
  refine ⟨_, feed_eq (by simp only [plan, waits.phased]; rfl), ?_⟩
  exact ⟨waits.ranked, waits.built, rfl, waits.placed, waits.nested⟩

/-- Behind a value each joint is placed as its operator. -/
theorem plan_joint {joint : Joint} (phased : builder.phase = .afterValue)
    (known : token.lexeme.terminal? = some (.joint joint)) :
    builder.plan token = .ok (builder.placeOperator joint.operator) := by
  obtain ⟨kind, word, span⟩ := token
  cases kind <;> simp [Token.lexeme, Lexeme.terminal?] at known
  case operator =>
    obtain ⟨operator, sign, rfl⟩ := known
    simp [plan, phased, sign, Joint.operator]
  case implicitMultiply =>
    subst known
    simp [plan, phased, Joint.operator]

/-- An operator waits for its right operand after it has taken over what binds tighter. -/
theorem Reaches.placeOperator {value : Expression}
    (reached : builder.Reaches precedence context value) (operator : Operator) :
    (builder.perform (builder.placeOperator operator)).Waits precedence .expectValue
      (.operand operator (context.climb precedence operator value).2
        (context.climb precedence operator value).1) := by
  have filled := reached.built.climb operator
  have point := reached.insertionPoint_some operator
  have nested := context.scopes_climb precedence operator value
  generalize context.climb precedence operator value = climbed at filled point nested ⊢
  obtain ⟨outer, left⟩ := climbed
  obtain ⟨placed, success, around, inside, found, size⟩ := filled.insertAbove
    (fun id different => Tree.get?_newOperation_ne different)
    (Tree.get?_newOperation_self builder.tree operator.symbol (precedence.rank operator)) rfl rfl
  have same : builder.tree.applyAll (builder.placeOperator operator).edits = placed := by
    rw [Builder.placeOperator, nextId, Tree.applyAll_newOperation, reached.ranked, point]
    simp [Tree.applyAll, Tree.applyOrKeep, Tree.apply, Tree.perform, success, Except.map]
  refine ⟨reached.ranked, ?_, rfl, filled.size, ?_⟩
  · rw [perform, same]
    refine ⟨⟨found, inside, around⟩, ?_⟩
    rw [size, Tree.size_newOperation, filled.size]
    rfl
  · exact reached.nested.trans nested.symm

theorem Reaches.joint {value : Expression} {joint : Joint}
    (reached : builder.Reaches precedence context value)
    (known : token.lexeme.terminal? = some (.joint joint)) :
    ∃ fed, builder.feed token = .ok fed ∧
      fed.Waits precedence .expectValue
        (.operand joint.operator (context.climb precedence joint.operator value).2
          (context.climb precedence joint.operator value).1) := by
  exact ⟨_, feed_eq (plan_joint reached.phased known), reached.placeOperator joint.operator⟩

variable {value inner : Expression} {outer : Context}

/-- A closing parenthesis makes the whole group the value that was read last. -/
theorem Reaches.groupClose (reached : builder.Reaches precedence context value)
    (ends : context.collapse value = (.group outer, inner))
    (known : token.lexeme.terminal? = some .groupClose) :
    ∃ fed, builder.feed token = .ok fed ∧ fed.Reaches precedence outer inner := by
  have filled := reached.built.collapse
  have nested := context.scopes_collapse value
  rw [ends] at filled nested
  have built := Tree.fills_group_iff.mp filled
  have scopes : builder.scopes = ⟨outer.node, .group⟩ :: outer.scopes :=
    reached.nested.trans nested.symm
  have last : builder.tree.lastChild? outer.node = some (inner.top outer.next) := by
    obtain ⟨owner, earlier, found, children, _⟩ := built.around.children_node
    rw [Tree.lastChild?, Tree.children, found]
    simp [children]
  obtain ⟨kind, word, span⟩ := token
  cases kind <;> simp [Token.lexeme, Lexeme.terminal?] at known
  refine ⟨_, feed_eq (by simp only [plan, reached.phased, scopes]; rfl), ?_⟩
  refine ⟨reached.ranked, built, rfl, ?_, rfl⟩
  simp [perform, stand, groupTop, last]

/-- The end of an argument list makes the call the value that was read last. -/
theorem Reaches.argumentsClose {name : String} {earlier : List Expression}
    (reached : builder.Reaches precedence context value)
    (ends : context.collapse value = (.argument name earlier outer, inner))
    (known : token.lexeme.terminal? = some .argumentsClose) :
    ∃ fed, builder.feed token = .ok fed ∧
      fed.Reaches precedence outer (.call name (earlier ++ [inner])) := by
  have filled := reached.built.collapse
  have nested := context.scopes_collapse value
  rw [ends] at filled nested
  have scopes : builder.scopes = ⟨outer.next, .call⟩ :: outer.scopes :=
    reached.nested.trans nested.symm
  obtain ⟨kind, word, span⟩ := token
  cases kind <;> simp [Token.lexeme, Lexeme.terminal?] at known
  refine ⟨_, feed_eq (by simp only [plan, reached.phased, scopes]; rfl), ?_⟩
  exact ⟨reached.ranked, filled.call, rfl, rfl, rfl⟩

/-- A comma adds the argument that was read last. -/
theorem Reaches.comma {name : String} {earlier : List Expression}
    (reached : builder.Reaches precedence context value)
    (ends : context.collapse value = (.argument name earlier outer, inner))
    (known : token.lexeme.terminal? = some .comma) :
    ∃ fed, builder.feed token = .ok fed ∧
      fed.Waits precedence .expectValue (.argument name (earlier ++ [inner]) outer) := by
  have filled := reached.built.collapse
  have nested := context.scopes_collapse value
  rw [ends] at filled nested
  have scopes : builder.scopes = ⟨outer.next, .call⟩ :: outer.scopes :=
    reached.nested.trans nested.symm
  obtain ⟨kind, word, span⟩ := token
  cases kind <;> simp [Token.lexeme, Lexeme.terminal?] at known
  refine ⟨_, feed_eq (by simp only [plan, reached.phased, scopes]; rfl), ?_⟩
  exact ⟨reached.ranked, filled.comma, rfl, rfl, rfl⟩

end Builder

end GlslFormula
