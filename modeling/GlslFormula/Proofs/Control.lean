/-
This file shows which token lists a builder takes. Only its phase and the kinds of its scopes
decide that, and a list is taken to the end exactly when the grammar derives it.
-/
import GlslFormula.Proofs.Grammar
import GlslFormula.Tree.Builder

namespace GlslFormula

open Grammar

/-- The control of a builder is what its choices depend on. -/
structure Control where
  phase : ParsePhase
  scopes : List ScopeKind
deriving DecidableEq

namespace Control

def start : Control := ⟨.expectValue, []⟩

/-- A complete formula ends here. -/
def done : Control := ⟨.afterValue, []⟩

def step : Control → Terminal → Option Control
  | ⟨.expectValue, scopes⟩, .number _ => some ⟨.afterValue, scopes⟩
  | ⟨.expectValue, scopes⟩, .symbol _ => some ⟨.afterValue, scopes⟩
  | ⟨.expectValue, scopes⟩, .groupOpen => some ⟨.expectValue, .group :: scopes⟩
  | ⟨.expectValue, scopes⟩, .name _ => some ⟨.expectArguments, .call :: scopes⟩
  | ⟨.expectArguments, scopes⟩, .argumentsOpen => some ⟨.expectValue, scopes⟩
  | ⟨.afterValue, scopes⟩, .joint _ => some ⟨.expectValue, scopes⟩
  | ⟨.afterValue, .group :: scopes⟩, .groupClose => some ⟨.afterValue, scopes⟩
  | ⟨.afterValue, .call :: scopes⟩, .argumentsClose => some ⟨.afterValue, scopes⟩
  | ⟨.afterValue, .call :: scopes⟩, .comma => some ⟨.expectValue, .call :: scopes⟩
  | _, _ => none

def run (control : Control) : List Terminal → Option Control
  | [] => some control
  | terminal :: rest => (control.step terminal).bind fun next => next.run rest

@[simp] theorem run_nil (control : Control) : control.run [] = some control := rfl

@[simp] theorem run_cons (control : Control) (terminal : Terminal) (rest : List Terminal) :
    control.run (terminal :: rest) = (control.step terminal).bind fun next => next.run rest := rfl

end Control

namespace Builder

def control (builder : Builder) : Control := ⟨builder.phase, builder.scopes.map Scope.kind⟩

@[simp] theorem control_start (precedence : Precedence) :
    (start precedence).control = .start := rfl

/-- A builder takes a token exactly when its control takes the terminal. -/
theorem feed_control (builder : Builder) (token : Token) :
    (builder.feed token).toOption.map control =
      token.lexeme.terminal?.bind builder.control.step := by
  obtain ⟨precedence, tree, phase, cursor, scopes⟩ := builder
  obtain ⟨kind, text, span⟩ := token
  cases kind with
  | operator =>
      cases phase <;> cases same : Operator.ofSymbol? text <;>
        simp [feed, plan, perform, placeOperator, control, Control.step, Lexeme.terminal?,
          Token.lexeme, same, Except.map, Except.toOption]
  | functionArgsEnd | argSeparator | parenthesisClose =>
      rcases scopes with _ | ⟨⟨node, _ | _⟩, outer⟩ <;> cases phase <;>
        simp [feed, plan, perform, stand, control, Control.step, Lexeme.terminal?,
          Token.lexeme, Except.map, Except.toOption]
  | _ =>
      cases phase <;>
        simp [feed, plan, perform, placeValue, placeOperator, placeFunction, stand, control,
          Control.step, Lexeme.terminal?, Token.lexeme, Except.map, Except.toOption]

theorem feedAll_append {builder middle : Builder} {first second : List Token}
    (success : builder.feedAll first = .ok middle) :
    builder.feedAll (first ++ second) = middle.feedAll second := by
  induction first generalizing builder with
  | nil =>
      cases success
      rfl
  | cons token rest inductionHypothesis =>
      rw [feedAll] at success
      rw [List.cons_append, feedAll]
      cases result : builder.feed token with
      | error error => simp [result] at success
      | ok next =>
          rw [result] at success
          exact inductionHypothesis success

theorem feedAll_singleton {builder fed : Builder} {token : Token}
    (success : builder.feed token = .ok fed) : builder.feedAll [token] = .ok fed := by
  simp [feedAll, success]

/-- The terminals of the tokens are known. -/
def Reads (tokens : List Token) (terminals : List Terminal) : Prop :=
  tokens.map (fun token => token.lexeme.terminal?) = terminals.map some

/-- A terminal that the control takes leads to the next builder. -/
theorem feed_of_step {builder : Builder} {token : Token} {terminal : Terminal} {next : Control}
    (known : token.lexeme.terminal? = some terminal)
    (taken : builder.control.step terminal = some next) :
    ∃ fed, builder.feed token = .ok fed ∧ fed.control = next := by
  have same := builder.feed_control token
  rw [known, Option.bind_some, taken] at same
  cases result : builder.feed token with
  | ok fed =>
      rw [result] at same
      exact ⟨fed, rfl, Option.some.inj same⟩
  | error error =>
      rw [result] at same
      simp [Except.toOption] at same

/-- A builder reads a whole list when its control does. -/
theorem feedAll_of_run {tokens : List Token} {terminals : List Terminal} {last : Control}
    (builder : Builder) (known : Reads tokens terminals)
    (taken : builder.control.run terminals = some last) :
    ∃ fed, builder.feedAll tokens = .ok fed ∧ fed.control = last := by
  induction tokens generalizing builder terminals with
  | nil =>
      cases terminals with
      | nil => exact ⟨builder, rfl, Option.some.inj taken⟩
      | cons terminal rest => simp [Reads] at known
  | cons token tokens inductionHypothesis =>
      cases terminals with
      | nil => simp [Reads] at known
      | cons terminal rest =>
          simp only [Reads, List.map_cons, List.cons.injEq] at known
          rw [Control.run_cons, Option.bind_eq_some_iff] at taken
          obtain ⟨next, stepped, remaining⟩ := taken
          obtain ⟨fed, success, same⟩ := feed_of_step known.1 stepped
          rw [← same] at remaining
          obtain ⟨final, finished, reached⟩ := inductionHypothesis fed known.2 remaining
          refine ⟨final, ?_, reached⟩
          rw [feedAll, success]
          exact finished

/-- The control follows each successful run. -/
theorem run_of_feedAll {tokens : List Token} {builder fed : Builder}
    (success : builder.feedAll tokens = .ok fed) :
    ∃ terminals, Reads tokens terminals ∧ builder.control.run terminals = some fed.control := by
  induction tokens generalizing builder with
  | nil =>
      cases success
      exact ⟨[], rfl, rfl⟩
  | cons token tokens inductionHypothesis =>
      rw [feedAll] at success
      cases result : builder.feed token with
      | error error => simp [result] at success
      | ok next =>
          rw [result] at success
          obtain ⟨terminals, known, reached⟩ := inductionHypothesis success
          have same := builder.feed_control token
          rw [result] at same
          obtain ⟨terminal, first, stepped⟩ := Option.bind_eq_some_iff.mp same.symm
          refine ⟨terminal :: terminals, ?_, ?_⟩
          · simp only [Reads, List.map_cons, List.cons.injEq]
            exact ⟨first, known⟩
          · rw [Control.run_cons, stepped]
            exact reached

/-- A builder gives a tree exactly when its control is at the end of a formula. -/
theorem finish_ok_iff (builder : Builder) (tree : Tree) :
    builder.finish = .ok tree ↔ builder.control = .done ∧ builder.tree = tree := by
  obtain ⟨precedence, built, phase, cursor, scopes⟩ := builder
  cases phase <;> cases scopes <;> simp [finish, control, Control.done]

end Builder

namespace Grammar

mutual

/-- The control reads a value without touching the scopes around it. -/
theorem Value.run_terminals (value : Value) (scopes : List ScopeKind) (rest : List Terminal) :
    Control.run ⟨.expectValue, scopes⟩ (value.terminals ++ rest) =
      Control.run ⟨.afterValue, scopes⟩ rest := by
  cases value with
  | number text => rfl
  | symbol text => rfl
  | group inner =>
      have inside := inner.run_terminals (.group :: scopes) (.groupClose :: rest)
      simpa [Value.terminals, Control.step] using inside
  | call name arguments =>
      have inside := arguments.run_terminals scopes rest
      simpa [Value.terminals, Control.step] using inside

theorem Chain.run_terminals (chain : Chain) (scopes : List ScopeKind) (rest : List Terminal) :
    Control.run ⟨.expectValue, scopes⟩ (chain.terminals ++ rest) =
      Control.run ⟨.afterValue, scopes⟩ rest := by
  cases chain with
  | single value => exact value.run_terminals scopes rest
  | join value joint tail =>
      rw [Chain.terminals, List.append_assoc, value.run_terminals]
      exact tail.run_terminals scopes rest

theorem Arguments.run_terminals (arguments : Arguments) (scopes : List ScopeKind)
    (rest : List Terminal) :
    Control.run ⟨.expectValue, .call :: scopes⟩ (arguments.terminals ++ .argumentsClose :: rest) =
      Control.run ⟨.afterValue, scopes⟩ rest := by
  cases arguments with
  | last argument =>
      exact argument.run_terminals (.call :: scopes) (.argumentsClose :: rest)
  | more argument tail =>
      rw [Arguments.terminals, List.append_assoc, argument.run_terminals]
      exact tail.run_terminals scopes rest

end

end Grammar

namespace Control

/-- A run to the end of the formula starts with a chain that cannot be extended. -/
def ReadsChain (size : Nat) : Prop :=
  ∀ (scopes : List ScopeKind) (terminals : List Terminal), terminals.length ≤ size →
    run ⟨.expectValue, scopes⟩ terminals = some done →
    ∃ (chain : Chain) (rest : List Terminal), terminals = chain.terminals ++ rest ∧
      run ⟨.afterValue, scopes⟩ rest = some done ∧ ∀ joint tail, rest ≠ .joint joint :: tail

/-- A run inside an argument list starts with all the arguments that are left. -/
def ReadsArguments (size : Nat) : Prop :=
  ∀ (scopes : List ScopeKind) (terminals : List Terminal), terminals.length ≤ size →
    run ⟨.expectValue, .call :: scopes⟩ terminals = some done →
    ∃ (arguments : Arguments) (rest : List Terminal),
      terminals = arguments.terminals ++ .argumentsClose :: rest ∧
      run ⟨.afterValue, scopes⟩ rest = some done

/-- Shorter chains and argument lists give the first value of a run. -/
theorem readsValue {size : Nat} (chains : ReadsChain size) (lists : ReadsArguments size)
    (scopes : List ScopeKind) (terminals : List Terminal) (short : terminals.length ≤ size + 1)
    (taken : run ⟨.expectValue, scopes⟩ terminals = some done) :
    ∃ (value : Value) (rest : List Terminal), terminals = value.terminals ++ rest ∧
      run ⟨.afterValue, scopes⟩ rest = some done := by
  cases terminals with
  | nil => simp [done] at taken
  | cons terminal rest =>
      simp only [List.length_cons, Nat.add_le_add_iff_right] at short
      cases terminal with
      | number text => exact ⟨.number text, rest, rfl, taken⟩
      | symbol text => exact ⟨.symbol text, rest, rfl, taken⟩
      | groupOpen =>
          obtain ⟨inner, tail, rfl, closing, noJoint⟩ := chains (.group :: scopes) rest short taken
          cases tail with
          | nil => simp [done] at closing
          | cons terminal tail =>
              cases terminal with
              | groupClose => exact ⟨.group inner, tail, by simp [Value.terminals], closing⟩
              | joint joint => exact absurd rfl (noJoint joint tail)
              | _ => simp [step] at closing
      | name text =>
          cases rest with
          | nil => simp [step, done] at taken
          | cons second rest =>
              cases second with
              | argumentsOpen =>
                  simp only [List.length_cons] at short
                  obtain ⟨arguments, tail, rfl, closed⟩ := lists scopes rest (by omega) taken
                  exact ⟨.call text arguments, tail, by simp [Value.terminals], closed⟩
              | _ => simp [step] at taken
      | _ => simp [step] at taken

/-- The two readings follow each other up to each length. -/
theorem readsChain_and_readsArguments (size : Nat) : ReadsChain size ∧ ReadsArguments size := by
  induction size with
  | zero =>
      constructor
      · intro scopes terminals short taken
        have empty : terminals = [] := List.length_eq_zero_iff.mp (Nat.le_zero.mp short)
        simp [empty, done] at taken
      · intro scopes terminals short taken
        have empty : terminals = [] := List.length_eq_zero_iff.mp (Nat.le_zero.mp short)
        simp [empty, done] at taken
  | succ size inductionHypothesis =>
      obtain ⟨chains, lists⟩ := inductionHypothesis
      have longer : ReadsChain (size + 1) := by
        intro scopes terminals short taken
        obtain ⟨value, rest, rfl, after⟩ := readsValue chains lists scopes terminals short taken
        rcases rest with _ | ⟨terminal, tail⟩
        · exact ⟨.single value, [], rfl, after, by simp⟩
        · cases terminal with
          | joint joint =>
              have shorter : tail.length ≤ size := by
                simp only [List.length_append, List.length_cons] at short
                omega
              obtain ⟨chain, rest, rfl, last, noJoint⟩ := chains scopes tail shorter after
              exact ⟨.join value joint chain, rest, by simp [Chain.terminals], last, noJoint⟩
          | _ => exact ⟨.single value, _ :: tail, rfl, after, by simp⟩
      refine ⟨longer, ?_⟩
      intro scopes terminals short taken
      obtain ⟨chain, rest, rfl, after, noJoint⟩ := longer (.call :: scopes) terminals short taken
      rcases rest with _ | ⟨terminal, tail⟩
      · simp [done] at after
      · cases terminal with
        | joint joint => exact absurd rfl (noJoint joint tail)
        | argumentsClose => exact ⟨.last chain, tail, rfl, after⟩
        | comma =>
            have shorter : tail.length ≤ size := by
              simp only [List.length_append, List.length_cons] at short
              omega
            obtain ⟨arguments, rest, rfl, closed⟩ := lists scopes tail shorter after
            exact ⟨.more chain arguments, rest, by simp [Arguments.terminals], closed⟩
        | _ => simp [step] at after

/-- The control accepts exactly the chains of the grammar. -/
theorem run_eq_done_iff (terminals : List Terminal) :
    start.run terminals = some done ↔ ∃ chain : Chain, chain.terminals = terminals := by
  constructor
  · intro taken
    obtain ⟨chain, rest, rfl, after, noJoint⟩ :=
      (readsChain_and_readsArguments terminals.length).1 [] terminals (Nat.le_refl _) taken
    rcases rest with _ | ⟨terminal, tail⟩
    · exact ⟨chain, by simp⟩
    · cases terminal with
      | joint joint => exact absurd rfl (noJoint joint tail)
      | _ => simp [step] at after
  · rintro ⟨chain, rfl⟩
    have read := chain.run_terminals [] []
    rwa [List.append_nil] at read

end Control

/-- A token list gives a tree exactly when the grammar derives it. -/
theorem Tree.ofTokens_ok_iff (precedence : Precedence) (tokens : List Token) :
    (∃ tree, Tree.ofTokens precedence tokens = .ok tree) ↔
      ∃ chain : Chain, chain.Derives (tokens.map Token.lexeme) := by
  constructor
  · rintro ⟨tree, accepted⟩
    rw [Tree.ofTokens] at accepted
    split at accepted
    case h_2 => simp at accepted
    case h_1 builder fed =>
      obtain ⟨terminals, known, reached⟩ := Builder.run_of_feedAll fed
      rw [((builder.finish_ok_iff tree).mp accepted).1] at reached
      obtain ⟨chain, rfl⟩ := (Control.run_eq_done_iff terminals).mp reached
      refine ⟨chain, ?_⟩
      rw [Chain.Derives, List.map_map]
      exact known
  · rintro ⟨chain, derived⟩
    rw [Chain.Derives, List.map_map] at derived
    have reached := (Control.run_eq_done_iff chain.terminals).mpr ⟨chain, rfl⟩
    obtain ⟨builder, fed, last⟩ := (Builder.start precedence).feedAll_of_run derived reached
    refine ⟨builder.tree, ?_⟩
    rw [Tree.ofTokens, fed]
    exact (builder.finish_ok_iff builder.tree).mpr ⟨last, rfl⟩

end GlslFormula
