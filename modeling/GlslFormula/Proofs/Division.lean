import GlslFormula.Proofs.Reference

namespace GlslFormula

open Grammar

/-- The operator takes over those on its left, and no operator on its right takes it over. -/
def Precedence.Tops (precedence : Precedence) (before : List Operator) (operator : Operator)
    (after : List Operator) : Prop :=
  (∀ other ∈ before, precedence.mustClimb (precedence.rank other) (some operator) = true) ∧
    ∀ other ∈ after, precedence.mustClimb (precedence.rank operator) (some other) = false

namespace Link

theorem isTop_iff_tops (precedence : Precedence) (before : List Link) (link : Link)
    (after : List Link) :
    IsTop precedence before link after ↔
      precedence.Tops (before.map operator) link.operator (after.map operator) := by
  simp [IsTop, Precedence.Tops]

/-- A chain has only one operator on top. -/
theorem IsTop.pivot_eq {precedence : Precedence} {before after : List Link} {link : Link}
    (isTop : IsTop precedence before link after) :
    pivot precedence (before ++ link :: after) = before.length := by
  have nonempty : before ++ link :: after ≠ [] := by simp
  obtain ⟨sooner, top, later, same, chosen, isPivot⟩ := pivot_split precedence nonempty
  rw [chosen]
  rcases List.append_eq_append_iff.mp same with ⟨between, rfl, rest⟩ | ⟨between, rfl, rest⟩
  · cases between with
    | nil => simp
    | cons first between =>
        obtain ⟨rfl, rfl⟩ := List.cons.inj rest
        have taken := isPivot.1 link (by simp)
        have kept := isTop.2 top (by simp)
        simp [taken] at kept
  · cases between with
    | nil => simp
    | cons first between =>
        obtain ⟨rfl, rfl⟩ := List.cons.inj rest
        have taken := isTop.1 top (by simp)
        have kept := isPivot.2 link (by simp)
        simp [taken] at kept

end Link

namespace Grammar

/-- Two chains are joined to a longer one. -/
def Chain.append : Chain → Joint → Chain → Chain
  | .single value, joint, right => .join value joint right
  | .join value first rest, joint, right => .join value first (rest.append joint right)

/-- These are the operators of a chain in source order. -/
def Chain.operators : Chain → List Operator
  | .single _ => []
  | .join _ joint rest => joint.operator :: rest.operators

namespace Chain

@[simp] theorem terminals_append (left : Chain) (joint : Joint) (right : Chain) :
    (left.append joint right).terminals = left.terminals ++ .joint joint :: right.terminals := by
  match left with
  | .single value => rfl
  | .join value first rest => simp [append, terminals, terminals_append rest]

@[simp] theorem operators_append (left : Chain) (joint : Joint) (right : Chain) :
    (left.append joint right).operators =
      left.operators ++ joint.operator :: right.operators := by
  match left with
  | .single value => rfl
  | .join value first rest => simp [append, operators, operators_append rest]

theorem first_append (precedence : Precedence) (left : Chain) (joint : Joint) (right : Chain) :
    (left.append joint right).first precedence = left.first precedence := by
  cases left <;> rfl

theorem links_append (precedence : Precedence) (left : Chain) (joint : Joint) (right : Chain) :
    (left.append joint right).links precedence =
      left.links precedence ++ ⟨joint.operator, right.first precedence⟩ ::
        right.links precedence := by
  match left with
  | .single value => rfl
  | .join value first rest => simp [append, links, first_append, links_append precedence rest]

theorem map_operator_links (precedence : Precedence) (chain : Chain) :
    (chain.links precedence).map Link.operator = chain.operators := by
  match chain with
  | .single value => rfl
  | .join value joint rest => simp [links, operators, map_operator_links precedence rest]

/-- A chain can be divided at each of its operators. -/
theorem exists_append_of_operators (chain : Chain) {before after : List Operator}
    {operator : Operator} (split : chain.operators = before ++ operator :: after) :
    ∃ (left : Chain) (joint : Joint) (right : Chain), chain = left.append joint right ∧
      left.operators = before ∧ joint.operator = operator ∧ right.operators = after := by
  match chain, before with
  | .single value, before => simp [operators] at split
  | .join value joint rest, [] =>
      obtain ⟨same, others⟩ := List.cons.inj split
      exact ⟨.single value, joint, rest, rfl, rfl, same, others⟩
  | .join value joint rest, first :: before =>
      obtain ⟨rfl, others⟩ := List.cons.inj split
      obtain ⟨left, middle, right, rfl, rfl, same, tail⟩ := rest.exists_append_of_operators others
      exact ⟨.join value joint left, middle, right, rfl, rfl, same, tail⟩

/-- A chain is a value, or it has an operator on top. -/
theorem single_or_tops (precedence : Precedence) (chain : Chain) :
    (∃ value, chain = .single value) ∨
      ∃ (left : Chain) (joint : Joint) (right : Chain), chain = left.append joint right ∧
        precedence.Tops left.operators joint.operator right.operators := by
  cases chain with
  | single value => exact .inl ⟨value, rfl⟩
  | join value first rest =>
      have nonempty : (Chain.join value first rest).links precedence ≠ [] := by simp [links]
      obtain ⟨before, link, after, split, -, isTop⟩ := Link.pivot_split precedence nonempty
      have divided : (Chain.join value first rest).operators =
          before.map Link.operator ++ link.operator :: after.map Link.operator := by
        rw [← map_operator_links precedence, split, List.map_append, List.map_cons]
      obtain ⟨left, joint, right, same, onLeft, onTop, onRight⟩ :=
        exists_append_of_operators _ divided
      refine .inr ⟨left, joint, right, same, ?_⟩
      rw [onLeft, onTop, onRight]
      exact (Link.isTop_iff_tops precedence before link after).mp isTop

theorem expression_single (precedence : Precedence) (value : Value) :
    (Chain.single value).expression precedence = value.expression precedence :=
  Link.arrange_nil precedence (value.expression precedence)

/-- The operands of the operator on top are the two sides of the chain. -/
theorem expression_append {precedence : Precedence} {left right : Chain} {joint : Joint}
    (tops : precedence.Tops left.operators joint.operator right.operators) :
    (left.append joint right).expression precedence =
      .operator joint.operator (left.expression precedence) (right.expression precedence) := by
  have isTop : Link.IsTop precedence (left.links precedence)
      ⟨joint.operator, right.first precedence⟩ (right.links precedence) := by
    rw [Link.isTop_iff_tops, map_operator_links, map_operator_links]
    exact tops
  rw [expression, first_append, links_append, Link.arrange_append _ _ _ _ isTop.pivot_eq]
  rfl

end Chain

/-- These are the arguments of a call in source order. -/
def Arguments.chains : Arguments → List Chain
  | .last argument => [argument]
  | .more argument rest => argument :: rest.chains

theorem Arguments.expressions_eq_map (precedence : Precedence) (arguments : Arguments) :
    arguments.expressions precedence =
      arguments.chains.map fun argument => argument.expression precedence := by
  match arguments with
  | .last argument => rfl
  | .more argument rest =>
      rw [expressions, chains, List.map_cons, rest.expressions_eq_map precedence]
      rfl

theorem Arguments.length_terminals_le (arguments : Arguments) {argument : Chain}
    (member : argument ∈ arguments.chains) :
    argument.terminals.length ≤ arguments.terminals.length := by
  match arguments with
  | .last only =>
      rw [List.mem_singleton.mp member]
      exact Nat.le_refl _
  | .more first rest =>
      rw [terminals, List.length_append, List.length_cons]
      rcases List.mem_cons.mp member with rfl | later
      · omega
      · have bound := rest.length_terminals_le later
        omega

/-- A fact about chains follows from the facts about the groups and arguments in them, and about
both sides of the operator on top. -/
theorem Chain.topInduction {motive : Chain → Prop} (precedence : Precedence)
    (number : ∀ text, motive (.single (.number text)))
    (symbol : ∀ text, motive (.single (.symbol text)))
    (group : ∀ inner, motive inner → motive (.single (.group inner)))
    (call : ∀ name arguments, (∀ argument ∈ Arguments.chains arguments, motive argument) →
      motive (.single (.call name arguments)))
    (split : ∀ left joint right,
      precedence.Tops (operators left) (Joint.operator joint) (operators right) →
      motive left → motive right → motive (left.append joint right))
    (chain : Chain) : motive chain := by
  rcases chain.single_or_tops precedence with ⟨value, same⟩ | ⟨left, joint, right, same, tops⟩
  · subst same
    cases value with
    | number text => exact number text
    | symbol text => exact symbol text
    | group inner =>
        exact group inner (topInduction precedence number symbol group call split inner)
    | call name arguments =>
        refine call name arguments fun argument member => ?_
        exact topInduction precedence number symbol group call split argument
  · subst same
    exact split left joint right tops
      (topInduction precedence number symbol group call split left)
      (topInduction precedence number symbol group call split right)
termination_by chain.terminals.length
decreasing_by
  -- A bracket or an operator is left out, so there are fewer terminals.
  all_goals subst_vars
  · simp [terminals, Value.terminals]
  · have bound := arguments.length_terminals_le member
    simp only [terminals, Value.terminals, List.length_cons, List.length_append]
    omega
  · simp
  · simp only [terminals_append, List.length_append, List.length_cons]
    omega

/-- These terminals have a node in the tree. -/
def Terminal.hasNode : Terminal → Bool
  | .number _ | .symbol _ | .joint _ | .name _ => true
  | .groupOpen | .groupClose | .argumentsOpen | .argumentsClose | .comma => false

end Grammar

/-- An arrangement has the nodes of its values and one node for each operator. -/
theorem Link.size_arrange (precedence : Precedence) (first : Expression) (links : List Link) :
    (arrange precedence first links).size =
      first.size + (links.map fun link => link.operand.size + 1).sum := by
  induction first, links using pivotInduction precedence with
  | single first => simp [arrange_nil]
  | split first before link after chosen isTop left right =>
      rw [arrange_append first before link after chosen, Expression.size, left, right,
        List.map_append, List.map_cons, List.sum_append, List.sum_cons]
      omega

namespace Grammar

mutual

/-- The size of an expression does not depend on the table. -/
theorem Value.size_expression (precedence : Precedence) (value : Value) :
    (value.expression precedence).size = value.terminals.countP Terminal.hasNode := by
  cases value with
  | number text => rfl
  | symbol text => rfl
  | group inner =>
      rw [Value.expression, Link.size_arrange, inner.size_links precedence, Value.terminals]
      simp [Terminal.hasNode]
  | call name arguments =>
      rw [Value.expression, Expression.size, arguments.size_expressions precedence,
        Value.terminals]
      simp [List.countP_cons, Terminal.hasNode, Nat.add_comm]

theorem Chain.size_links (precedence : Precedence) (chain : Chain) :
    (chain.first precedence).size +
        ((chain.links precedence).map fun link => link.operand.size + 1).sum =
      chain.terminals.countP Terminal.hasNode := by
  cases chain with
  | single value => simpa [Chain.first, Chain.links, Chain.terminals] using
      value.size_expression precedence
  | join value joint rest =>
      have tail := rest.size_links precedence
      simp only [Chain.first, Chain.links, Chain.terminals, value.size_expression precedence,
        List.map_cons, List.sum_cons, List.countP_append, List.countP_cons, Terminal.hasNode,
        if_true]
      omega

theorem Arguments.size_expressions (precedence : Precedence) (arguments : Arguments) :
    Expression.sizeAll (arguments.expressions precedence) =
      arguments.terminals.countP Terminal.hasNode := by
  cases arguments with
  | last argument =>
      rw [Arguments.expressions, Expression.sizeAll, Expression.sizeAll, Link.size_arrange,
        argument.size_links precedence, Arguments.terminals, Nat.add_zero]
  | more argument rest =>
      rw [Arguments.expressions, Expression.sizeAll, Link.size_arrange,
        argument.size_links precedence, rest.size_expressions precedence, Arguments.terminals]
      simp [Terminal.hasNode]

end

theorem Chain.size_expression (precedence : Precedence) (chain : Chain) :
    (chain.expression precedence).size = chain.terminals.countP Terminal.hasNode := by
  rw [Chain.expression, Link.size_arrange, chain.size_links]

end Grammar

end GlslFormula
