import GlslFormula.Proofs.Arrangement
import GlslFormula.Proofs.Assembly

namespace GlslFormula

namespace Grammar

mutual

/-- Parentheses have no node. The arguments of a call keep their order. -/
def Value.expression (precedence : Precedence) : Value → Expression
  | .number text => .number text
  | .symbol text => .symbol text
  | .group inner => Link.arrange precedence (inner.first precedence) (inner.links precedence)
  | .call name arguments => .call name (arguments.expressions precedence)

/-- The first value of a chain. -/
def Chain.first (precedence : Precedence) : Chain → Expression
  | .single value => value.expression precedence
  | .join value _ _ => value.expression precedence

/-- The operators of a chain, each with the value after it. -/
def Chain.links (precedence : Precedence) : Chain → List Link
  | .single _ => []
  | .join _ joint rest => ⟨joint.operator, rest.first precedence⟩ :: rest.links precedence

def Arguments.expressions (precedence : Precedence) : Arguments → List Expression
  | .last argument =>
      [Link.arrange precedence (argument.first precedence) (argument.links precedence)]
  | .more argument rest =>
      Link.arrange precedence (argument.first precedence) (argument.links precedence) ::
        rest.expressions precedence

end

/-- The expression of a chain is the arrangement of its values. -/
def Chain.expression (precedence : Precedence) (chain : Chain) : Expression :=
  Link.arrange precedence (chain.first precedence) (chain.links precedence)

end Grammar

open Grammar

namespace Context

/-- Pending operators stand between the start of a chain and its next value. -/
def extend (base : Context) : List Pending → Context
  | [] => base
  | latest :: rest => .operand latest.operator latest.left (base.extend rest)

theorem climb_extend {base : Context} (starts : base.StartsChain) (precedence : Precedence)
    (incoming : Operator) (pending : List Pending) (value : Expression) :
    (base.extend pending).climb precedence incoming value =
      (base.extend (Pending.climb precedence incoming pending value).1,
        (Pending.climb precedence incoming pending value).2) := by
  induction pending generalizing value with
  | nil =>
      cases base with
      | operand operator left outer => exact starts.elim
      | _ => rfl
  | cons latest rest inductionHypothesis =>
      rw [extend, climb, Pending.climb]
      split
      · exact inductionHypothesis _
      · rfl

theorem collapse_extend {base : Context} (starts : base.StartsChain) (pending : List Pending)
    (value : Expression) :
    (base.extend pending).collapse value = (base, Pending.close pending value) := by
  induction pending generalizing value with
  | nil =>
      cases base with
      | operand operator left outer => exact starts.elim
      | _ => rfl
  | cons latest rest inductionHypothesis => exact inductionHypothesis _

end Context

namespace Builder

theorem Reads.split {tokens : List Token} {first second : List Terminal}
    (known : Reads tokens (first ++ second)) :
    ∃ before after, tokens = before ++ after ∧ Reads before first ∧ Reads after second := by
  rw [Reads, List.map_append, List.map_eq_append_iff] at known
  exact known

theorem Reads.uncons {tokens : List Token} {terminal : Terminal} {terminals : List Terminal}
    (known : Reads tokens (terminal :: terminals)) :
    ∃ token rest, tokens = token :: rest ∧ token.lexeme.terminal? = some terminal ∧
      Reads rest terminals := by
  rw [Reads, List.map_cons, List.map_eq_cons_iff] at known
  exact known

theorem Reads.single {tokens : List Token} {terminal : Terminal}
    (known : Reads tokens [terminal]) :
    ∃ token, tokens = [token] ∧ token.lexeme.terminal? = some terminal := by
  obtain ⟨token, rest, rfl, first, others⟩ := known.uncons
  refine ⟨token, ?_, first⟩
  rw [List.map_eq_nil_iff.mp others]

end Builder

namespace Grammar

open Builder

variable {precedence : Precedence} {builder : Builder} {tokens : List Token}

/-- A chain that was read in full closes with its expression. -/
theorem Chain.collapse_read (precedence : Precedence) (chain : Chain) (base : Context)
    (starts : base.StartsChain) :
    (base.extend
        (Pending.read precedence [] (chain.first precedence) (chain.links precedence)).1).collapse
      (Pending.read precedence [] (chain.first precedence) (chain.links precedence)).2 =
        (base, chain.expression precedence) := by
  rw [Context.collapse_extend starts, Pending.close_read]
  rfl

mutual

/-- A builder reads a value into the context where it stands. -/
theorem Value.feedAll (value : Value) {builder : Builder} {tokens : List Token}
    {context : Context} (waits : builder.Waits precedence .expectValue context)
    (known : Reads tokens value.terminals) :
    ∃ fed, builder.feedAll tokens = .ok fed ∧
      fed.Reaches precedence context (value.expression precedence) := by
  cases value with
  | number text =>
      obtain ⟨token, rfl, first⟩ := Reads.single known
      obtain ⟨fed, success, reached⟩ := waits.number first
      exact ⟨fed, feedAll_singleton success, reached⟩
  | symbol text =>
      obtain ⟨token, rfl, first⟩ := Reads.single known
      obtain ⟨fed, success, reached⟩ := waits.symbol first
      exact ⟨fed, feedAll_singleton success, reached⟩
  | group inner =>
      obtain ⟨token, rest, rfl, first, others⟩ := Reads.uncons known
      obtain ⟨inside, closing, rfl, readInside, readClosing⟩ := Reads.split others
      obtain ⟨last, rfl, close⟩ := Reads.single readClosing
      obtain ⟨opened, success, waiting⟩ := waits.groupOpen first
      obtain ⟨middle, read, reached⟩ :=
        inner.feedAll (.group context) [] trivial waiting readInside
      have collapsed := inner.collapse_read precedence (.group context) trivial
      obtain ⟨fed, closed, result⟩ := reached.groupClose collapsed close
      refine ⟨fed, ?_, result⟩
      rw [← List.singleton_append, feedAll_append (feedAll_singleton success), feedAll_append read]
      exact feedAll_singleton closed
  | call name arguments =>
      obtain ⟨token, rest, rfl, first, others⟩ := Reads.uncons known
      obtain ⟨second, tail, rfl, opening, remaining⟩ := Reads.uncons others
      obtain ⟨named, success, waiting⟩ := waits.name first
      obtain ⟨opened, started, ready⟩ := waiting.argumentsOpen opening
      obtain ⟨fed, read, result⟩ := arguments.feedAll ready remaining
      refine ⟨fed, ?_, result⟩
      rw [← List.singleton_append, feedAll_append (feedAll_singleton success),
        ← List.singleton_append, feedAll_append (feedAll_singleton started)]
      exact read

/-- A builder reads a chain behind the operators that are pending. -/
theorem Chain.feedAll (chain : Chain) {builder : Builder} {tokens : List Token}
    (base : Context) (pending : List Pending) (starts : base.StartsChain)
    (waits : builder.Waits precedence .expectValue (base.extend pending))
    (known : Reads tokens chain.terminals) :
    ∃ fed, builder.feedAll tokens = .ok fed ∧
      fed.Reaches precedence
        (base.extend
          (Pending.read precedence pending (chain.first precedence) (chain.links precedence)).1)
        (Pending.read precedence pending (chain.first precedence) (chain.links precedence)).2 := by
  cases chain with
  | single value => exact value.feedAll waits known
  | join value joint rest =>
      obtain ⟨before, after, rfl, readValue, others⟩ := Reads.split known
      obtain ⟨token, tail, rfl, sign, readRest⟩ := Reads.uncons others
      obtain ⟨first, read, reached⟩ := value.feedAll waits readValue
      obtain ⟨middle, taken, waiting⟩ := reached.joint sign
      rw [Context.climb_extend starts] at waiting
      obtain ⟨fed, finished, result⟩ :=
        rest.feedAll base (⟨joint.operator, _⟩ :: _) starts waiting readRest
      refine ⟨fed, ?_, result⟩
      rw [feedAll_append read, ← List.singleton_append, feedAll_append (feedAll_singleton taken)]
      exact finished

/-- A builder reads the arguments that are left in a call. -/
theorem Arguments.feedAll (arguments : Arguments) {builder : Builder} {tokens : List Token}
    {name : String} {earlier : List Expression} {outer : Context}
    (waits : builder.Waits precedence .expectValue (.argument name earlier outer))
    (known : Reads tokens (arguments.terminals ++ [.argumentsClose])) :
    ∃ fed, builder.feedAll tokens = .ok fed ∧
      fed.Reaches precedence outer
        (.call name (earlier ++ arguments.expressions precedence)) := by
  cases arguments with
  | last argument =>
      obtain ⟨inside, closing, rfl, readInside, readClosing⟩ := Reads.split known
      obtain ⟨token, rfl, close⟩ := Reads.single readClosing
      obtain ⟨middle, read, reached⟩ :=
        argument.feedAll (.argument name earlier outer) [] trivial waits readInside
      have collapsed := argument.collapse_read precedence (.argument name earlier outer) trivial
      obtain ⟨fed, closed, result⟩ := reached.argumentsClose collapsed close
      refine ⟨fed, ?_, result⟩
      rw [feedAll_append read]
      exact feedAll_singleton closed
  | more argument rest =>
      rw [Arguments.terminals, List.append_assoc] at known
      obtain ⟨inside, others, rfl, readInside, readOthers⟩ := Reads.split known
      obtain ⟨token, tail, rfl, comma, readRest⟩ := Reads.uncons readOthers
      obtain ⟨middle, read, reached⟩ :=
        argument.feedAll (.argument name earlier outer) [] trivial waits readInside
      have collapsed := argument.collapse_read precedence (.argument name earlier outer) trivial
      obtain ⟨next, taken, waiting⟩ := reached.comma collapsed comma
      obtain ⟨fed, finished, result⟩ := rest.feedAll waiting readRest
      refine ⟨fed, ?_, ?_⟩
      · rw [feedAll_append read, ← List.singleton_append,
          feedAll_append (feedAll_singleton taken)]
        exact finished
      · rw [List.append_assoc] at result
        exact result

end

/-- A derived token list gives a tree that is filled by the expression of its chain. -/
theorem Chain.ofTokens (chain : Chain) (precedence : Precedence)
    (derived : chain.Derives (tokens.map Token.lexeme)) :
    ∃ tree, Tree.ofTokens precedence tokens = .ok tree ∧
      tree.Fills precedence .whole (chain.expression precedence) := by
  rw [Chain.Derives, List.map_map] at derived
  obtain ⟨builder, success, reached⟩ :=
    chain.feedAll .whole [] trivial (start_waits precedence) derived
  have filled := reached.built.collapse
  have nested : builder.scopes = [] := by
    rw [reached.nested, ← Context.scopes_collapse, chain.collapse_read precedence .whole trivial]
    rfl
  have last : builder.control = .done := by
    rw [Builder.control, reached.phased, nested]
    rfl
  rw [chain.collapse_read precedence .whole trivial] at filled
  refine ⟨builder.tree, ?_, filled⟩
  rw [Tree.ofTokens, success]
  exact (builder.finish_ok_iff builder.tree).mpr ⟨last, rfl⟩

end Grammar

/-- An accepted token list is derived by a chain, and its tree shows the expression of the chain. -/
theorem Tree.ofTokens_shows (precedence : Precedence) (tokens : List Token) (tree : Tree)
    (accepted : Tree.ofTokens precedence tokens = .ok tree) :
    (∃ chain : Chain, chain.Derives (tokens.map Token.lexeme)) ∧
      ∀ chain : Chain, chain.Derives (tokens.map Token.lexeme) →
        ∃ top, tree.Labels Tree.root .root "" [top] ∧
          tree.Shows top (chain.expression precedence) := by
  refine ⟨(Tree.ofTokens_ok_iff precedence tokens).mp ⟨tree, accepted⟩, ?_⟩
  intro chain derived
  obtain ⟨built, success, filled⟩ := chain.ofTokens precedence derived
  obtain rfl : built = tree := Except.ok.inj (success.symm.trans accepted)
  exact ⟨_, ⟨_, filled.around, rfl, rfl, rfl⟩, filled.inside.shows⟩

/-- These are the tokens of `2^(x-1-y)f(z,3)`. -/
def sampleTokens : List Token :=
  [⟨.number, "2", .single 0⟩, ⟨.operator, "^", .single 1⟩, ⟨.parenthesisOpen, "(", .single 2⟩,
    ⟨.symbol, "x", .single 3⟩, ⟨.operator, "-", .single 4⟩, ⟨.number, "1", .single 5⟩,
    ⟨.operator, "-", .single 6⟩, ⟨.symbol, "y", .single 7⟩, ⟨.parenthesisClose, ")", .single 8⟩,
    ⟨.implicitMultiply, "", .point 9⟩, ⟨.functionName, "f", .single 9⟩,
    ⟨.functionArgsStart, "(", .single 10⟩, ⟨.symbol, "z", .single 11⟩,
    ⟨.argSeparator, ",", .single 12⟩, ⟨.number, "3", .single 13⟩,
    ⟨.functionArgsEnd, ")", .single 14⟩]

def sampleChain : Chain :=
  .join (.number "2") (.sign .pow)
    (.join (.group (.join (.symbol "x") (.sign .sub)
        (.join (.number "1") (.sign .sub) (.single (.symbol "y"))))) .adjacent
      (.single (.call "f" (.more (.single (.symbol "z")) (.last (.single (.number "3")))))))

/-- The differences group to the left, and the power binds tighter than the product. -/
theorem Tree.ofTokens_shows_sample :
    ∃ tree top, Tree.ofTokens .conventional sampleTokens = .ok tree ∧
      tree.Labels Tree.root .root "" [top] ∧
      tree.Shows top
        (.operator .mul
          (.operator .pow (.number "2")
            (.operator .sub (.operator .sub (.symbol "x") (.number "1")) (.symbol "y")))
          (.call "f" [.symbol "z", .number "3"])) := by
  have derived : sampleChain.Derives (sampleTokens.map Token.lexeme) := rfl
  obtain ⟨tree, accepted⟩ :=
    (Tree.ofTokens_ok_iff .conventional sampleTokens).mpr ⟨sampleChain, derived⟩
  obtain ⟨top, atRoot, shown⟩ :=
    (Tree.ofTokens_shows .conventional sampleTokens tree accepted).2 sampleChain derived
  refine ⟨tree, top, accepted, atRoot, ?_⟩
  have arranged : sampleChain.expression .conventional =
      .operator .mul
        (.operator .pow (.number "2")
          (.operator .sub (.operator .sub (.symbol "x") (.number "1")) (.symbol "y")))
        (.call "f" [.symbol "z", .number "3"]) := by
    cbv
  rwa [arranged] at shown

end GlslFormula
