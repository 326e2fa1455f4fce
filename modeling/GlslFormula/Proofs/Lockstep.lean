/-
This file shows that a scanner and a builder run in lockstep. After each character the tokens so
far lead a builder to the same open brackets, and to the end of a value exactly when the scanner
stands there.
-/
import GlslFormula.Proofs.Control
import GlslFormula.Proofs.ScanStep

namespace GlslFormula

def Bracket.scopeKind : Bracket → ScopeKind
  | .group => .group
  | .arguments => .call

/-- A text that is still pending is no value for the builder. -/
def ScanPhase.parsePhase : ScanPhase → ParsePhase
  | .afterValue => .afterValue
  | .expectValue | .afterSign | .inIdentifier | .inInteger | .inDecimal => .expectValue

/-- The control reads the tokens in the order in which a scanner stores them. -/
def Control.after? : List Token → Option Control
  | [] => some .start
  | token :: earlier =>
      (after? earlier).bind fun control => token.lexeme.terminal?.bind control.step

theorem Control.after?_cons {earlier : List Token} {token : Token} {control next : Control}
    {terminal : Grammar.Terminal} (reached : after? earlier = some control)
    (known : token.lexeme.terminal? = some terminal) (taken : control.step terminal = some next) :
    after? (token :: earlier) = some next := by
  rw [after?, reached, Option.bind_some, known, Option.bind_some, taken]

/-- A builder takes the tokens that the control reads. -/
theorem Builder.feedAll_of_after? {emitted : List Token} {control : Control}
    (precedence : Precedence) (reached : Control.after? emitted = some control) :
    ∃ builder, (Builder.start precedence).feedAll emitted.reverse = .ok builder ∧
      builder.control = control := by
  induction emitted generalizing control with
  | nil => exact ⟨Builder.start precedence, rfl, Option.some.inj reached⟩
  | cons token earlier inductionHypothesis =>
      obtain ⟨before, first, stepped⟩ := Option.bind_eq_some_iff.mp reached
      obtain ⟨terminal, known, taken⟩ := Option.bind_eq_some_iff.mp stepped
      obtain ⟨builder, success, rfl⟩ := inductionHypothesis first
      obtain ⟨fed, last, same⟩ := feed_of_step known taken
      refine ⟨fed, ?_, same⟩
      rw [List.reverse_cons, feedAll_append success]
      exact feedAll_singleton last

/-- A run of the control goes on behind the tokens that it has read. -/
theorem Control.after?_append {tokens : List Token} (earlier : List Token)
    {terminals : List Grammar.Terminal} {control last : Control}
    (known : Builder.Reads tokens terminals)
    (reached : after? earlier = some control) (taken : control.run terminals = some last) :
    after? (tokens.reverse ++ earlier) = some last := by
  induction tokens generalizing terminals earlier control with
  | nil =>
      obtain rfl : terminals = [] := by simpa [Builder.Reads] using known
      rw [← taken]
      exact reached
  | cons token rest inductionHypothesis =>
      obtain ⟨terminal, terminals, rfl⟩ : ∃ first others, terminals = first :: others := by
        cases terminals with
        | nil => simp [Builder.Reads] at known
        | cons first others => exact ⟨first, others, rfl⟩
      simp only [Builder.Reads, List.map_cons, List.cons.injEq] at known
      obtain ⟨next, stepped, remaining⟩ := Option.bind_eq_some_iff.mp taken
      rw [List.reverse_cons, List.append_assoc]
      have longer := after?_cons reached known.1 stepped
      exact inductionHypothesis (token :: earlier) known.2 longer remaining

/-- The tokens lead to the end of a formula exactly when the grammar derives them. -/
theorem Control.after?_eq_done_iff (tokens : List Token) :
    after? tokens.reverse = some .done ↔
      ∃ chain : Grammar.Chain, chain.Derives (tokens.map Token.lexeme) := by
  constructor
  · intro reached
    obtain ⟨builder, fed, last⟩ := Builder.feedAll_of_after? .distinct reached
    rw [List.reverse_reverse] at fed
    apply (Tree.ofTokens_ok_iff .distinct tokens).mp
    refine ⟨builder.tree, ?_⟩
    rw [Tree.ofTokens, fed]
    exact (builder.finish_ok_iff builder.tree).mpr ⟨last, rfl⟩
  · rintro ⟨chain, derived⟩
    rw [Grammar.Chain.Derives, List.map_map] at derived
    have taken := (run_eq_done_iff chain.terminals).mpr ⟨chain, rfl⟩
    have reached := after?_append [] derived rfl taken
    rwa [List.append_nil] at reached

namespace Scanner

/-- The control of a scanner is that of a builder with the tokens so far. -/
def control (scanner : Scanner) : Control :=
  ⟨scanner.phase.parsePhase, scanner.brackets.map Bracket.scopeKind⟩

/-- The emitted tokens lead to the control of the scanner. -/
def InStep (scanner : Scanner) : Prop := Control.after? scanner.emitted = some scanner.control

theorem start_inStep : start.InStep := rfl

/-- A complete value leads to the control behind it. -/
theorem InStep.ready {scanner : Scanner} (inStep : scanner.InStep) (index : Nat)
    (complete : scanner.phase.isComplete = true) : (scanner.ready index).InStep := by
  obtain ⟨phase, brackets, buffer, bufferStart, emitted⟩ := scanner
  cases phase with
  | expectValue => simp [ScanPhase.isComplete] at complete
  | afterSign => simp [ScanPhase.isComplete] at complete
  | afterValue => exact inStep
  | inIdentifier | inInteger | inDecimal => exact Control.after?_cons inStep rfl rfl

/-- A pending text changes nothing for the control. -/
theorem InStep.congr {scanner : Scanner} (inStep : scanner.InStep) (next : Scanner)
    (emitted : next.emitted = scanner.emitted) (brackets : next.brackets = scanner.brackets)
    (phase : next.phase.parsePhase = scanner.phase.parsePhase) : next.InStep := by
  rw [InStep, control, emitted, brackets, phase]
  exact inStep

/-- Each step keeps the scanner and the control together. -/
theorem InStep.step {scanner next : Scanner} {index : Nat} {c : Char} (inStep : scanner.InStep)
    (taken : scanner.Steps index c next) : next.InStep := by
  cases taken with
  | skip blank atStart => exact inStep
  | rest blank complete => exact inStep.ready index complete
  | extend phase extended =>
      refine inStep.congr _ rfl rfl ?_
      cases before : scanner.phase <;> cases same : CharClass.ofChar c <;>
        simp [ScanPhase.extension, before, same] at extended <;> subst extended <;> rfl
  | begin phase atStart begun =>
      refine inStep.congr _ rfl rfl ?_
      rw [atStart]
      cases same : CharClass.ofChar c <;> simp [CharClass.beginning, same] at begun <;>
        subst begun <;> rfl
  | factor letter complete notName =>
      exact Control.after?_cons (inStep.ready index complete) rfl rfl
  | sign isSign complete =>
      obtain ⟨operator, isSymbol⟩ := CharClass.exists_symbol_eq isSign
      have known : (Token.mk .operator c.toString (.single index)).lexeme.terminal? =
          some (.joint (.sign operator)) := by
        rw [← isSymbol]
        simp [Token.lexeme, Lexeme.terminal?]
      exact Control.after?_cons (inStep.ready index complete) known rfl
  | comma isComma complete inside =>
      have ready := inStep.ready index complete
      obtain ⟨outer, opened⟩ := List.head?_eq_some_iff.mp inside
      rw [InStep, control, ready_brackets, opened] at ready
      have same : ((scanner.ready index).separate .argSeparator index c).control =
          ⟨.expectValue, .call :: outer.map Bracket.scopeKind⟩ := by
        simp [control, separate, emit, opened, ScanPhase.parsePhase, Bracket.scopeKind]
      rw [InStep, same]
      exact Control.after?_cons ready rfl rfl
  | group isOpen atStart =>
      rw [InStep, control, atStart] at inStep
      exact Control.after?_cons inStep rfl rfl
  | call isOpen named =>
      rw [InStep, control, named] at inStep
      exact Control.after?_cons (Control.after?_cons inStep rfl rfl) rfl rfl
  | product isOpen complete notName =>
      have ready := inStep.ready index complete
      exact Control.after?_cons (Control.after?_cons ready rfl rfl) rfl rfl
  | close isClose complete bracket outer opened =>
      have ready := inStep.ready index complete
      rw [InStep, control, ready_brackets, opened] at ready
      cases bracket with
      | group => exact Control.after?_cons ready rfl rfl
      | arguments => exact Control.after?_cons ready rfl rfl

/-- Each run keeps the scanner and the control together. -/
theorem InStep.read {scanner last : Scanner} {index : Nat} {formula : List Char}
    (inStep : scanner.InStep) (consumed : scanner.read index formula = (last, none)) :
    last.InStep := by
  induction formula generalizing scanner index with
  | nil =>
      cases consumed
      exact inStep
  | cons c rest inductionHypothesis =>
      obtain ⟨next, taken, remaining⟩ := steps_of_read consumed
      exact inductionHypothesis (inStep.step taken) remaining

end Scanner

/-- The tokens of each prefix that the scanner takes are taken by a builder, which then stands in
the same brackets and behind a value exactly when the scanner does. -/
theorem Scanner.feedAll_tokens (precedence : Precedence) (formula : String) (count : Nat)
    (scanner : Scanner)
    (consumed : Scanner.start.read 0 (formula.toList.take count) = (scanner, none)) :
    ∃ builder, (Builder.start precedence).feedAll scanner.tokens = .ok builder ∧
      builder.scopes.map Scope.kind = scanner.brackets.map Bracket.scopeKind ∧
      (scanner.phase = .afterValue → builder.phase = .afterValue) ∧
      (scanner.phase ≠ .afterValue → builder.phase = .expectValue) := by
  have inStep : scanner.InStep := start_inStep.read consumed
  obtain ⟨builder, fed, same⟩ := Builder.feedAll_of_after? precedence inStep
  have phases : builder.phase = scanner.phase.parsePhase := congrArg Control.phase same
  refine ⟨builder, fed, congrArg Control.scopes same, ?_, ?_⟩
  · intro complete
    rw [phases, complete]
    rfl
  · intro incomplete
    rw [phases]
    cases last : scanner.phase with
    | afterValue => exact absurd last incomplete
    | _ => rfl

/-- This scanner has read the prefix `2 sin(3, (x` of a formula. -/
def Scanner.sample : Scanner := (Scanner.start.read 0 ("2 sin(3, (x) + y)".toList.take 11)).1

theorem Scanner.feedAll_tokens_sample :
    Scanner.start.read 0 ("2 sin(3, (x) + y)".toList.take 11) = (Scanner.sample, none) ∧
      Scanner.sample.brackets = [.group, .arguments] ∧ Scanner.sample.phase = .inIdentifier ∧
      ∃ builder, (Builder.start .distinct).feedAll Scanner.sample.tokens = .ok builder ∧
        builder.scopes.map Scope.kind = [.group, .call] ∧ builder.phase = .expectValue := by
  have consumed :
      Scanner.start.read 0 ("2 sin(3, (x) + y)".toList.take 11) = (Scanner.sample, none) := by
    decide +kernel
  have brackets : Scanner.sample.brackets = [.group, .arguments] := by decide +kernel
  have pending : Scanner.sample.phase = .inIdentifier := by decide +kernel
  obtain ⟨builder, fed, scopes, -, waits⟩ :=
    Scanner.feedAll_tokens .distinct "2 sin(3, (x) + y)" 11 Scanner.sample consumed
  rw [brackets] at scopes
  exact ⟨consumed, brackets, pending, builder, fed, scopes, waits (by rw [pending]; simp)⟩

end GlslFormula
