import GlslFormula.Proofs.Ascent
import GlslFormula.Proofs.Branches
import GlslFormula.Proofs.Origin
import GlslFormula.Proofs.Progress

namespace GlslFormula

namespace Builder

/-- A round of the climb to the nearest operation. -/
def attachVisit (builder : Builder) (_ : NodeId) (id : NodeId) (node : Node) : NodeId × Bool :=
  (id, decide (id = builder.scopeNode ∨ node.kind = .operation))

/-- A round of the climb over the operations that bind tighter. -/
def insertVisit (builder : Builder) (incoming : Option Operator) (point id : NodeId)
    (node : Node) : NodeId × Bool :=
  if id = builder.scopeNode then (point, true)
  else if node.kind = .operation then
    if builder.precedence.mustClimb (builder.rankOf id) incoming then (id, false)
    else (point, true)
  else (point, false)

/-- Whatever token comes next, the loops end, the nodes are there and the edits run through. -/
structure Sound (builder : Builder) : Prop where
  attaches : builder.tree.Ascends builder.attachVisit (some builder.cursor) builder.cursor
    builder.attachPoint
  inserts : ∀ incoming, builder.cursor ≠ builder.scopeNode →
    ∃ node, builder.tree.get? builder.cursor = some node ∧
      builder.tree.Ascends (builder.insertVisit incoming) node.parent builder.cursor
        (builder.insertionPoint incoming)
  stored : ∀ scope ∈ builder.scopes, scope.node < builder.tree.size
  executes : ∀ token move, builder.plan token = .ok move →
    builder.tree.Executes move.edits (builder.perform move).tree

/-- The tree is linked, and what the builder points to is in the store. -/
structure Safe (builder : Builder) : Prop where
  linked : builder.tree.Linked
  placed : builder.cursor < builder.tree.size
  stored : ∀ scope ∈ builder.scopes, scope.node < builder.tree.size

theorem start_safe (precedence : Precedence) : (start precedence).Safe :=
  ⟨.empty, Nat.one_pos, by simp [start]⟩

variable {builder fed : Builder} {token : Token} {tokens : List Token} {id : NodeId}
  {path : List NodeId}

theorem isOperation_of_get? {node : Node} (found : builder.tree.get? id = some node) :
    builder.tree.isOperation id = decide (node.kind = .operation) := by
  rw [Tree.isOperation, found]
  rfl

theorem follows_attach (builder : Builder) :
    builder.tree.Follows builder.attachVisit fun fuel current before =>
      match current with
      | some id => builder.climbToOperation fuel id
      | none => before where
  above fuel before := rfl
  stop fuel id node before last found stops := by
    simp only [attachVisit, Prod.mk.injEq, decide_eq_true_eq] at stops
    obtain ⟨rfl, reached⟩ := stops
    simp only [climbToOperation, isOperation_of_get? found, decide_eq_true_eq, if_pos reached]
  rise fuel id node before next found goes := by
    simp only [attachVisit, Prod.mk.injEq, decide_eq_false_iff_not] at goes
    obtain ⟨rfl, lower⟩ := goes
    cases above : node.parent <;>
      simp only [climbToOperation, isOperation_of_get? found, decide_eq_true_eq, if_neg lower,
        Tree.parent?_of_get? found, above]

theorem follows_insert (builder : Builder) (incoming : Option Operator) :
    builder.tree.Follows (builder.insertVisit incoming) fun fuel current point =>
      builder.climbOver incoming fuel point current where
  above fuel point := by cases fuel <;> rfl
  stop fuel id node point last found stops := by
    simp only [climbOver, isOperation_of_get? found, decide_eq_true_eq]
    simp only [insertVisit] at stops
    repeat' split at stops
    all_goals simp_all
  rise fuel id node point next found goes := by
    simp only [climbOver, isOperation_of_get? found, decide_eq_true_eq,
      Tree.parent?_of_get? found]
    simp only [insertVisit] at goes
    repeat' split at goes
    all_goals simp_all

namespace Safe

theorem attaches (safe : builder.Safe) :
    builder.tree.Ascends builder.attachVisit (some builder.cursor) builder.cursor
      builder.attachPoint := by
  obtain ⟨path, rises⟩ := safe.linked.rises builder.cursor
  have inside := safe.linked.path_lt_size rises safe.placed
  exact rises.ascends builder.follows_attach inside (rises.length_le_size inside) builder.cursor

theorem attachPoint_lt (safe : builder.Safe) : builder.attachPoint < builder.tree.size := by
  apply safe.attaches.keeps (fun id => id < builder.tree.size) _ safe.placed
  intro before id node found _
  exact (Tree.get?_eq_some_iff_lt builder.tree id).mp ⟨node, found⟩

theorem inserts (safe : builder.Safe) (incoming : Option Operator)
    (outside : builder.cursor ≠ builder.scopeNode) :
    ∃ node, builder.tree.get? builder.cursor = some node ∧
      builder.tree.Ascends (builder.insertVisit incoming) node.parent builder.cursor
        (builder.insertionPoint incoming) := by
  obtain ⟨node, found, above⟩ := Tree.exists_get? safe.placed
  refine ⟨node, found, ?_⟩
  rw [insertionPoint, if_neg outside, ← above]
  cases link : builder.tree.parent? builder.cursor with
  | none =>
      rw [(builder.follows_insert incoming).above]
      exact .above builder.cursor
  | some parent =>
      obtain ⟨path, rises⟩ := safe.linked.rises parent
      have inside := safe.linked.path_lt_size rises (safe.linked.lt_size link)
      exact rises.ascends (builder.follows_insert incoming) inside (rises.length_le_size inside)
        builder.cursor

theorem insertionPoint_lt (safe : builder.Safe) (incoming : Option Operator) :
    builder.insertionPoint incoming < builder.tree.size := by
  by_cases outside : builder.cursor = builder.scopeNode
  · rw [insertionPoint, if_pos outside]
    exact safe.placed
  · obtain ⟨_, _, ascends⟩ := safe.inserts incoming outside
    apply ascends.keeps (fun id => id < builder.tree.size) _ safe.placed
    intro point id node found kept
    have inside := (Tree.get?_eq_some_iff_lt builder.tree id).mp ⟨node, found⟩
    rw [insertVisit]
    split_ifs <;> assumption

end Safe

end Builder

namespace Tree

variable {tree extended : Tree} {id : NodeId}

/-- A node that is not linked yet is not above any other node. -/
theorem Linked.fresh_not_mem (linked : tree.Linked) (inside : id < tree.size)
    (parents : ∀ each, extended.parent? each = tree.parent? each) {path : List NodeId}
    (rises : extended.Path id path) : tree.size ∉ path := by
  obtain ⟨old, climbs⟩ := linked.rises id
  rw [rises.unique (climbs.congr fun each _ => parents each)]
  intro member
  exact Nat.lt_irrefl _ (linked.path_lt_size climbs inside tree.size member)

/-- The edits run through and leave a linked tree with one node more. -/
def Adds (tree start : Tree) (edits : List Edit) : Prop :=
  ∃ placed, Executes start edits placed ∧ placed.Linked ∧ placed.size = tree.size + 1

/-- A node that was just created can be appended to each node that is there. -/
theorem Linked.append_fresh (linked : tree.Linked) (extendedLinked : extended.Linked)
    (inside : id < tree.size) (parents : ∀ each, extended.parent? each = tree.parent? each)
    (size : extended.size = tree.size + 1) :
    tree.Adds extended [.append id tree.size] := by
  have room : id < extended.size := by
    rw [size]
    exact Nat.lt_succ_of_lt inside
  have last : tree.size < extended.size := by omega
  obtain ⟨placed, success⟩ := extendedLinked.append_succeeds room last
    fun path rises => linked.fresh_not_mem inside parents rises
  refine ⟨placed, ?_, extendedLinked.append success, (size_append success).trans size⟩
  exact .step (extendedLinked.edit_ends trivial) (apply_append.trans success) (.done _)

/-- A node that was just created can be inserted above each node that is there. -/
theorem Linked.insertAbove_fresh (linked : tree.Linked) (extendedLinked : extended.Linked)
    (inside : id < tree.size) (parents : ∀ each, extended.parent? each = tree.parent? each)
    (size : extended.size = tree.size + 1) :
    tree.Adds extended [.insertAbove id tree.size] := by
  have room : id < extended.size := by
    rw [size]
    exact Nat.lt_succ_of_lt inside
  have last : tree.size < extended.size := by omega
  have permitted : (Edit.insertAbove id tree.size).Permitted extended := by
    intro path rises member
    exact linked.fresh_not_mem inside parents rises (List.mem_of_mem_tail member)
  obtain ⟨placed, success⟩ := extendedLinked.insertAbove_succeeds room last permitted
  refine ⟨placed, ?_, extendedLinked.insertAbove permitted success,
    (size_insertAbove success).trans size⟩
  exact .step (extendedLinked.edit_ends permitted) (apply_insertAbove.trans success) (.done _)

theorem parent?_newOperation (tree : Tree) (text : String) (rank : Nat) (id : NodeId) :
    (tree.newOperation text rank).parent? id = tree.parent? id := by
  rw [newOperation]
  exact (parent?_modify (by intro node; rfl) id).trans (parent?_create tree .operation text id)

theorem Linked.newOperation (linked : tree.Linked) (text : String) (rank : Nat) :
    (tree.newOperation text rank).Linked :=
  (linked.create .operation text).modify_attributes fun attributes =>
    attributes.insert precedenceAttribute (toString rank)

theorem Adds.create {kind : NodeKind} {text : String} {edits : List Edit}
    (adds : tree.Adds (tree.create kind text) edits) :
    tree.Adds tree (.create kind text :: edits) := by
  obtain ⟨placed, executes, linked, size⟩ := adds
  have created : tree.apply (.create kind text) = .ok (tree.create kind text) := rfl
  exact ⟨placed, .step (by trivial) created executes, linked, size⟩

/-- The first two edits of an operation cannot fault. -/
theorem Adds.newOperation {text : String} {rank : Nat} {edits : List Edit}
    (adds : tree.Adds (tree.newOperation text rank) edits) :
    tree.Adds tree (.create .operation text ::
      .setAttribute tree.size precedenceAttribute (toString rank) :: edits) := by
  obtain ⟨placed, executes, linked, size⟩ := adds
  have ranked : (tree.create .operation text).apply
      (.setAttribute tree.size precedenceAttribute (toString rank)) =
        .ok (tree.newOperation text rank) :=
    apply_setAttribute_ok_iff.mpr ⟨by simp, rfl⟩
  exact Adds.create ⟨placed, .step (by trivial) ranked executes, linked, size⟩

end Tree

namespace Builder

variable {builder fed : Builder} {token : Token} {move : Move}

/-- A move places a value, an operator or a call, or only stands elsewhere. -/
inductive Moves (builder : Builder) : Move → Prop where
  | value (kind : NodeKind) (text : String) : Moves builder (builder.placeValue kind text)
  | operator (operator : Operator) : Moves builder (builder.placeOperator operator)
  | function (name : String) : Moves builder (builder.placeFunction name)
  | stand (phase : ParsePhase) (cursor : NodeId) (scopes : List Scope)
      (known : cursor = builder.cursor ∨
        ∃ scope ∈ builder.scopes, cursor = scope.node ∨ cursor = builder.groupTop scope)
      (kept : ∀ scope ∈ scopes, scope ∈ builder.scopes ∨ scope.node = builder.cursor) :
      Moves builder (stand phase cursor scopes)

theorem moves_of_plan (planned : builder.plan token = .ok move) : builder.Moves move := by
  obtain ⟨precedence, tree, phase, cursor, scopes⟩ := builder
  obtain ⟨kind, text, span⟩ := token
  cases kind with
  | number | symbol =>
      cases phase <;> cases planned
      exact .value _ text
  | operator =>
      cases phase <;> cases same : Operator.ofSymbol? text <;> simp [plan, same] at planned
      subst planned
      exact .operator _
  | implicitMultiply =>
      cases phase <;> cases planned
      exact .operator .mul
  | functionName =>
      cases phase <;> cases planned
      exact .function text
  | functionArgsStart =>
      cases phase <;> cases planned
      exact .stand _ _ _ (.inl rfl) fun scope member => .inl member
  | parenthesisOpen =>
      cases phase <;> cases planned
      refine .stand _ _ _ (.inl rfl) ?_
      intro scope member
      rcases List.mem_cons.mp member with rfl | outer
      · exact .inr rfl
      · exact .inl outer
  | functionArgsEnd | parenthesisClose | argSeparator =>
      rcases scopes with _ | ⟨⟨node, _ | _⟩, outer⟩ <;> cases phase <;> cases planned
      all_goals
        refine .stand _ _ _ (.inr ⟨_, List.mem_cons_self .., ?_⟩) ?_
        · simp [groupTop]
        · intro scope member
          simp_all

namespace Safe

theorem adds_value (safe : builder.Safe) (kind : NodeKind) (text : String) :
    builder.tree.Adds builder.tree (builder.placeValue kind text).edits :=
  (safe.linked.append_fresh (safe.linked.create kind text) safe.attachPoint_lt
    (Tree.parent?_create builder.tree kind text) (by simp)).create

theorem adds_operator (safe : builder.Safe) (operator : Operator) :
    builder.tree.Adds builder.tree (builder.placeOperator operator).edits :=
  (safe.linked.insertAbove_fresh (safe.linked.newOperation operator.symbol _)
    (safe.insertionPoint_lt (some operator)) (Tree.parent?_newOperation _ _ _)
    (by simp)).newOperation

theorem adds_function (safe : builder.Safe) (name : String) :
    builder.tree.Adds builder.tree (builder.placeFunction name).edits :=
  (safe.linked.append_fresh (safe.linked.newOperation name _) (safe.insertionPoint_lt none)
    (Tree.parent?_newOperation _ _ _) (by simp)).newOperation

theorem groupTop_lt (safe : builder.Safe) {scope : Scope} (member : scope ∈ builder.scopes) :
    builder.groupTop scope < builder.tree.size := by
  rw [groupTop]
  cases last : builder.tree.lastChild? scope.node with
  | none => exact safe.stored scope member
  | some child => exact safe.linked.child_lt_size (List.mem_of_getLast? last)

/-- The last node of the store is the cursor after a placement. -/
theorem perform_of_adds (safe : builder.Safe) (adds : builder.tree.Adds builder.tree move.edits)
    (cursor : move.cursor = builder.nextId)
    (scopes : ∀ scope ∈ move.scopes, scope ∈ builder.scopes ∨ scope.node = builder.nextId) :
    builder.tree.Executes move.edits (builder.perform move).tree ∧ (builder.perform move).Safe := by
  obtain ⟨placed, executes, linked, size⟩ := adds
  have same : (builder.perform move).tree = placed := executes.applyAll_eq
  rw [same]
  refine ⟨executes, same ▸ linked, ?_, ?_⟩
  · rw [same, size]
    show move.cursor < _
    rw [cursor]
    exact Nat.lt_succ_self _
  · intro scope member
    rw [same, size]
    rcases scopes scope member with old | fresh
    · exact Nat.lt_succ_of_lt (safe.stored scope old)
    · rw [fresh]
      exact Nat.lt_succ_self _

/-- Each move of a safe builder runs through and leaves a safe builder. -/
theorem perform (safe : builder.Safe) (moves : builder.Moves move) :
    builder.tree.Executes move.edits (builder.perform move).tree ∧ (builder.perform move).Safe := by
  cases moves with
  | value kind text =>
      exact safe.perform_of_adds (safe.adds_value kind text) rfl fun scope member => .inl member
  | operator operator =>
      exact safe.perform_of_adds (safe.adds_operator operator) rfl fun scope member => .inl member
  | function name =>
      apply safe.perform_of_adds (safe.adds_function name) rfl
      intro scope member
      rcases List.mem_cons.mp member with rfl | outer
      · exact .inr rfl
      · exact .inl outer
  | stand phase cursor scopes known kept =>
      refine ⟨.done _, safe.linked, ?_, ?_⟩
      · rcases known with rfl | ⟨scope, member, rfl | rfl⟩
        · exact safe.placed
        · exact safe.stored scope member
        · exact safe.groupTop_lt member
      · intro scope member
        rcases kept scope member with old | fresh
        · exact safe.stored scope old
        · rw [fresh]
          exact safe.placed

theorem sound (safe : builder.Safe) : builder.Sound where
  attaches := safe.attaches
  inserts := safe.inserts
  stored := safe.stored
  executes _ _ planned := (safe.perform (moves_of_plan planned)).1

theorem feed (safe : builder.Safe) (success : builder.feed token = .ok fed) : fed.Safe := by
  rw [Builder.feed] at success
  cases planned : builder.plan token with
  | error error => simp [planned, Except.map] at success
  | ok move =>
      rw [planned] at success
      obtain rfl := Except.ok.inj success
      exact (safe.perform (moves_of_plan planned)).2

/-- A builder stays safe, whether its tokens are taken or refused. -/
theorem feedOn (safe : builder.Safe) (tokens : List Token) : (builder.feedOn tokens).Safe :=
  feedOn_keeps (fun _ _ _ before success => before.feed success) safe tokens

end Safe

end Builder

end GlslFormula
