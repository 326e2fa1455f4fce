import GlslFormula.Proofs.InPlace
import GlslFormula.Proofs.Safety

namespace GlslFormula.Builder

/-- Feeding in place stops with a refusal or with a fault of the tree. -/
inductive Failure where
  | refused (error : ParseError)
  | faulted (fault : Tree.Fault)
deriving DecidableEq

/-- An update changes the builder step by step. -/
abbrev Update := EStateM Failure Builder

namespace Update

/-- A fault leaves the store as the edit left it. -/
def edit (edit : Tree.Edit) : Update Unit := fun builder =>
  match edit.inPlace builder.tree with
  | .ok _ tree => .ok () { builder with tree := tree }
  | .error fault tree => .error (.faulted fault) { builder with tree := tree }

def moveTo (cursor : NodeId) : Update Unit := do
  set { (← get) with cursor := cursor }

def become (phase : ParsePhase) : Update Unit := do
  set { (← get) with phase := phase }

def nest (scopes : List Scope) : Update Unit := do
  set { (← get) with scopes := scopes }

def create (kind : NodeKind) (text : String) : Update NodeId := do
  let id := (← get).nextId
  edit (.create kind text)
  return id

/-- The climb moves the cursor before the node is created. -/
def insertValue (kind : NodeKind) (text : String) : Update Unit := do
  moveTo (← get).attachPoint
  let id ← create kind text
  edit (.append (← get).cursor id)
  moveTo id

def createOperation (text : String) (rank : Nat) : Update NodeId := do
  let id ← create .operation text
  edit (.setAttribute id precedenceAttribute (toString rank))
  return id

def insertOperator (operator : Operator) : Update Unit := do
  let builder ← get
  let id ← createOperation operator.symbol (builder.precedence.rank operator)
  edit (.insertAbove (builder.insertionPoint (some operator)) id)
  moveTo id

def insertFunction (name : String) : Update NodeId := do
  let builder ← get
  let id ← createOperation name builder.precedence.functionRank
  edit (.append (builder.insertionPoint none) id)
  moveTo id
  return id

/-- The phase changes last. -/
def feed (token : Token) : Update Unit := do
  let builder ← get
  match token.kind, builder.phase, builder.scopes with
  | .number, .expectValue, _ =>
      insertValue .number token.text
      become .afterValue
  | .symbol, .expectValue, _ =>
      insertValue .symbol token.text
      become .afterValue
  | .operator, .afterValue, _ =>
      match Operator.ofSymbol? token.text with
      | some operator =>
          insertOperator operator
          become .expectValue
      | none => throw (.refused (.unknownOperator token.text token.span.start))
  | .implicitMultiply, .afterValue, _ =>
      insertOperator .mul
      become .expectValue
  | .functionName, .expectValue, scopes =>
      let id ← insertFunction token.text
      nest (⟨id, .call⟩ :: scopes)
      become .expectArguments
  | .functionArgsStart, .expectArguments, _ => become .expectValue
  | .functionArgsEnd, .afterValue, ⟨node, .call⟩ :: outer =>
      nest outer
      moveTo node
      become .afterValue
  | .argSeparator, .afterValue, ⟨node, .call⟩ :: _ =>
      moveTo node
      become .expectValue
  | .parenthesisOpen, .expectValue, scopes =>
      nest (⟨builder.cursor, .group⟩ :: scopes)
      become .expectValue
  | .parenthesisClose, .afterValue, ⟨node, .group⟩ :: outer =>
      nest outer
      moveTo ((← get).groupTop ⟨node, .group⟩)
      become .afterValue
  | _, phase, _ => throw (.refused (.unexpected token phase))

/-- The tokens are fed in order, up to the first one that stops. -/
def feedEach : List Token → Update Unit
  | [] => return
  | token :: rest => do
      feed token
      feedEach rest

end Update

/-- A token is taken or refused as its plan says. -/
def attempt (builder : Builder) (token : Token) : Except Failure (Unit × Builder) :=
  ((builder.feed token).mapError Failure.refused).map fun fed => ((), fed)

/-- The tokens are fed in place and in order, also behind one that is refused. -/
def leaveAll (builder : Builder) (tokens : List Token) : Builder :=
  tokens.foldl (fun builder token => remains (Update.feed token builder)) builder

/-- These are the tokens that are not refused. -/
def taken (builder : Builder) : List Token → List Token
  | [] => []
  | token :: rest =>
      match Update.feed token builder with
      | .ok _ next => token :: next.taken rest
      | .error _ left => left.taken rest

variable {builder : Builder} {edit : Tree.Edit} {edited : Tree} {token : Token}
  {tokens : List Token}

/-- An edit that would not fault changes the store and nothing else. -/
theorem edit_of_apply (linked : builder.tree.Linked) (permitted : edit.Permitted builder.tree)
    (success : builder.tree.apply edit = .ok edited) :
    Update.edit edit builder = .ok () { builder with tree := edited } := by
  rw [Update.edit, linked.edit_inPlace permitted]
  rw [Tree.apply] at success
  cases performed : builder.tree.perform edit with
  | error fault => simp [performed, Except.map] at success
  | ok result =>
      rw [performed] at success
      cases success
      rfl

/-- An edit that adds a node is a run of its own. -/
theorem edit_of_adds {tree : Tree} (linked : builder.tree.Linked)
    (permitted : edit.Permitted builder.tree) (adds : tree.Adds builder.tree [edit]) :
    Update.edit edit builder = .ok () { builder with tree := builder.tree.applyAll [edit] } := by
  obtain ⟨placed, executes, -⟩ := adds
  rw [executes.applyAll_eq]
  obtain _ | ⟨-, success, remaining⟩ := executes
  cases remaining
  exact edit_of_apply linked permitted success

theorem create_inPlace (builder : Builder) (kind : NodeKind) (text : String) :
    Update.create kind text builder =
      .ok builder.nextId { builder with tree := builder.tree.create kind text } :=
  rfl

theorem createOperation_inPlace (linked : builder.tree.Linked) (text : String) (rank : Nat) :
    Update.createOperation text rank builder =
      .ok builder.nextId { builder with tree := builder.tree.newOperation text rank } := by
  rw [Update.createOperation, bind_of_ok (create_inPlace builder .operation text)]
  have ranked : Update.edit (.setAttribute builder.nextId precedenceAttribute (toString rank))
      { builder with tree := builder.tree.create .operation text } =
        .ok () { builder with tree := builder.tree.newOperation text rank } := by
    refine edit_of_apply (linked.create .operation text) trivial ?_
    exact Tree.apply_setAttribute_ok_iff.mpr ⟨by simp [nextId], rfl⟩
  rw [bind_of_ok ranked]
  rfl

namespace Safe

theorem insertValue_inPlace (safe : builder.Safe) (kind : NodeKind) (text : String) :
    Update.insertValue kind text builder =
      .ok () { builder with
        tree := builder.tree.applyAll (builder.placeValue kind text).edits
        cursor := builder.nextId } := by
  have created := safe.linked.create kind text
  have adds := safe.linked.append_fresh created safe.attachPoint_lt
    (Tree.parent?_create builder.tree kind text) (by simp)
  have placed : Update.edit (.append builder.attachPoint builder.nextId)
      { builder with
        tree := builder.tree.create kind text
        cursor := builder.attachPoint } =
      .ok () { builder with
        tree := (builder.tree.create kind text).applyAll
          [.append builder.attachPoint builder.nextId]
        cursor := builder.attachPoint } := edit_of_adds created trivial adds
  exact bind_of_ok placed

/-- An operation that was just created is not above another node, so it may be inserted. -/
theorem insertOperator_inPlace (safe : builder.Safe) (operator : Operator) :
    Update.insertOperator operator builder =
      .ok () { builder with
        tree := builder.tree.applyAll (builder.placeOperator operator).edits
        cursor := builder.nextId } := by
  have created := safe.linked.newOperation operator.symbol (builder.precedence.rank operator)
  have inside := safe.insertionPoint_lt (some operator)
  have parents := Tree.parent?_newOperation builder.tree operator.symbol
    (builder.precedence.rank operator)
  have adds := safe.linked.insertAbove_fresh created inside parents (by simp)
  have placed : Update.edit (.insertAbove (builder.insertionPoint (some operator)) builder.nextId)
      { builder with
        tree := builder.tree.newOperation operator.symbol (builder.precedence.rank operator) } =
      .ok () { builder with
        tree := builder.tree.applyAll (builder.placeOperator operator).edits } := by
    rw [placeOperator, nextId, Tree.applyAll_newOperation]
    refine edit_of_adds created ?_ adds
    intro path rises member
    exact safe.linked.fresh_not_mem inside parents rises (List.mem_of_mem_tail member)
  refine (bind_of_ok (createOperation_inPlace safe.linked _ _)).trans ?_
  exact bind_of_ok placed

theorem insertFunction_inPlace (safe : builder.Safe) (name : String) :
    Update.insertFunction name builder =
      .ok builder.nextId { builder with
        tree := builder.tree.applyAll (builder.placeFunction name).edits
        cursor := builder.nextId } := by
  have created := safe.linked.newOperation name builder.precedence.functionRank
  have adds := safe.linked.append_fresh created (safe.insertionPoint_lt none)
    (Tree.parent?_newOperation builder.tree name builder.precedence.functionRank) (by simp)
  have placed : Update.edit (.append (builder.insertionPoint none) builder.nextId)
      { builder with
        tree := builder.tree.newOperation name builder.precedence.functionRank } =
      .ok () { builder with tree := builder.tree.applyAll (builder.placeFunction name).edits } := by
    rw [placeFunction, nextId, Tree.applyAll_newOperation]
    exact edit_of_adds created trivial adds
  refine (bind_of_ok (createOperation_inPlace safe.linked _ _)).trans ?_
  exact bind_of_ok placed

/-- A token in place does what its move does, and nothing if it is refused. -/
theorem feed_inPlace (safe : builder.Safe) (token : Token) :
    Update.feed token builder = transact builder (builder.attempt token) := by
  obtain ⟨precedence, tree, phase, cursor, scopes⟩ := builder
  obtain ⟨kind, text, span⟩ := token
  cases kind with
  | number | symbol =>
      cases phase with
      | expectValue => exact bind_of_ok (safe.insertValue_inPlace _ text)
      | afterValue | expectArguments => rfl
  | operator =>
      cases phase with
      | afterValue =>
          cases known : Operator.ofSymbol? text with
          | none =>
              simp only [Update.feed, attempt, Builder.feed, plan, known]
              rfl
          | some operator =>
              simp only [Update.feed, attempt, Builder.feed, plan, known]
              exact bind_of_ok (safe.insertOperator_inPlace operator)
      | expectValue | expectArguments => rfl
  | implicitMultiply =>
      cases phase with
      | afterValue => exact bind_of_ok (safe.insertOperator_inPlace .mul)
      | expectValue | expectArguments => rfl
  | functionName =>
      cases phase with
      | expectValue => exact bind_of_ok (safe.insertFunction_inPlace text)
      | afterValue | expectArguments => rfl
  | functionArgsStart | parenthesisOpen => cases phase <;> rfl
  | functionArgsEnd | parenthesisClose | argSeparator =>
      rcases scopes with _ | ⟨⟨node, _ | _⟩, outer⟩ <;> cases phase <;> rfl

/-- The tree does not fault, and a refusal changes nothing. -/
theorem refused_of_feed (safe : builder.Safe) {failure : Failure} {left : Builder}
    (failed : Update.feed token builder = .error failure left) :
    left = builder ∧ ∃ error, failure = .refused error ∧ builder.feed token = .error error := by
  rw [safe.feed_inPlace, attempt] at failed
  refine ⟨eq_of_transact_error failed, ?_⟩
  cases result : builder.feed token with
  | error error =>
      rw [result] at failed
      cases failed
      exact ⟨error, rfl, rfl⟩
  | ok next =>
      rw [result] at failed
      cases failed

theorem remains_feed (safe : builder.Safe) (token : Token) :
    remains (Update.feed token builder) = builder.feedOrKeep token := by
  rw [safe.feed_inPlace, attempt, feedOrKeep]
  cases builder.feed token <;> rfl

/-- Feeding in place goes on behind a refusal as if the token had not come. -/
theorem leaveAll_eq (safe : builder.Safe) (tokens : List Token) :
    builder.leaveAll tokens = builder.feedOn tokens := by
  induction tokens generalizing builder with
  | nil => rfl
  | cons token rest inductionHypothesis =>
      rw [leaveAll, List.foldl_cons, safe.remains_feed, Builder.feedOn, List.foldl_cons]
      exact inductionHypothesis (safe.feedOn [token])

theorem taken_eq (safe : builder.Safe) (tokens : List Token) :
    builder.taken tokens = builder.accepted tokens := by
  induction tokens generalizing builder with
  | nil => rfl
  | cons token rest inductionHypothesis =>
      rw [taken, accepted, safe.feed_inPlace, attempt]
      cases result : builder.feed token with
      | error error => exact inductionHypothesis safe
      | ok next => exact congrArg (token :: ·) (inductionHypothesis (safe.feed result))

/-- A run without a refusal is the same in place. -/
theorem feedEach_inPlace {fed : Builder} (safe : builder.Safe)
    (success : builder.feedAll tokens = .ok fed) : Update.feedEach tokens builder = .ok () fed := by
  induction tokens generalizing builder with
  | nil =>
      cases success
      rfl
  | cons token rest inductionHypothesis =>
      have runs := safe.feed_inPlace token
      rw [attempt] at runs
      rw [feedAll] at success
      cases result : builder.feed token with
      | error error => simp [result] at success
      | ok next =>
          rw [result] at runs success
          refine (bind_of_ok runs).trans ?_
          exact inductionHypothesis (safe.feed result) success

end Safe

/-- Tokens are fed in place from the start, and feeding goes on behind each refusal. The next token
is taken or refused as its plan says, the tree never faults, and a refusal leaves the whole builder
as it was. The tokens that are not refused lead to the same builder on their own, and it ends with
the tree or the error of their list. -/
theorem feed_resumes (precedence : Precedence) (tokens : List Token) :
    (∀ token,
      Update.feed token ((start precedence).leaveAll tokens) =
        transact ((start precedence).leaveAll tokens)
          (((start precedence).leaveAll tokens).attempt token)) ∧
      (∀ token failure left,
        Update.feed token ((start precedence).leaveAll tokens) = .error failure left →
          left = (start precedence).leaveAll tokens ∧
            ∃ error, failure = .refused error ∧
              ((start precedence).leaveAll tokens).feed token = .error error) ∧
      Update.feedEach ((start precedence).taken tokens) (start precedence) =
        .ok () ((start precedence).leaveAll tokens) ∧
      ((start precedence).leaveAll tokens).finish =
        Tree.ofTokens precedence ((start precedence).taken tokens) := by
  have initial := start_safe precedence
  have safe := initial.feedOn tokens
  have run := feedAll_accepted (start precedence) tokens
  rw [initial.leaveAll_eq, initial.taken_eq]
  refine ⟨safe.feed_inPlace, ?_, initial.feedEach_inPlace run, ?_⟩
  · intro token failure left failed
    exact safe.refused_of_feed failed
  · rw [Tree.ofTokens, run]

end GlslFormula.Builder
