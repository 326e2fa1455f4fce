import GlslFormula.Proofs.Control

namespace GlslFormula

open Grammar

/-- The phase behind a token depends only on the kind of the token. -/
def TokenKind.phaseAfter : TokenKind → ParsePhase
  | .number | .symbol | .parenthesisClose | .functionArgsEnd => .afterValue
  | .functionName => .expectArguments
  | .operator | .implicitMultiply | .parenthesisOpen | .functionArgsStart | .argSeparator =>
      .expectValue

def TokenKind.opens : TokenKind → Bool
  | .parenthesisOpen | .functionArgsStart => true
  | _ => false

def TokenKind.closes : TokenKind → Bool
  | .parenthesisClose | .functionArgsEnd => true
  | _ => false

namespace Token

/-- A list ends after a complete value when its last token ends one. -/
def phaseAfter (tokens : List Token) : ParsePhase :=
  match tokens.getLast? with
  | none => .expectValue
  | some token => token.kind.phaseAfter

/-- These are the groups and argument lists that the tokens open. -/
def opened (tokens : List Token) : Nat := tokens.countP fun token => token.kind.opens

def closed (tokens : List Token) : Nat := tokens.countP fun token => token.kind.closes

def Derivable (tokens : List Token) : Prop :=
  ∃ chain : Chain, chain.Derives (tokens.map lexeme)

/-- The tokens are the start of a formula. -/
def Viable (tokens : List Token) : Prop := ∃ more, Derivable (tokens ++ more)

@[simp] theorem phaseAfter_concat (tokens : List Token) (token : Token) :
    phaseAfter (tokens ++ [token]) = token.kind.phaseAfter := by
  simp [phaseAfter]

end Token

open Token in
/-- This is what a refusal says about the tokens. A sign is unknown only where an operator may
stand. -/
inductive ParseError.Reports (tokens : List Token) : ParseError → Prop where
  | unexpectedToken (before : List Token) (token : Token) (after : List Token)
      (split : tokens = before ++ token :: after) (viable : Viable before)
      (stuck : ¬ Viable (before ++ [token]))
      (misplaced : token.kind = .operator → phaseAfter before ≠ .afterValue) :
      Reports tokens
        (.unexpectedToken token.kind token.text token.span.start (phaseAfter before))
  | unknownOperator (before : List Token) (token : Token) (after : List Token)
      (split : tokens = before ++ token :: after) (viable : Viable before)
      (stuck : ¬ Viable (before ++ [token])) (sign : token.kind = .operator)
      (placed : phaseAfter before = .afterValue) :
      Reports tokens (.unknownOperator token.text token.span.start)
  | unexpectedEnd (viable : Viable tokens) (incomplete : phaseAfter tokens ≠ .afterValue) :
      Reports tokens (.unexpectedEnd (phaseAfter tokens))
  | unclosedScope (count : Nat) (viable : Viable tokens)
      (complete : phaseAfter tokens = .afterValue) (positive : 0 < count)
      (unclosed : opened tokens = closed tokens + count) :
      Reports tokens (.unclosedScope count)

namespace Grammar

/-- This token stands for the terminal. -/
def Terminal.token : Terminal → Token
  | .number text => ⟨.number, text, .point 0⟩
  | .symbol text => ⟨.symbol, text, .point 0⟩
  | .joint (.sign operator) => ⟨.operator, operator.symbol, .point 0⟩
  | .joint .adjacent => ⟨.implicitMultiply, "", .point 0⟩
  | .groupOpen => ⟨.parenthesisOpen, "(", .point 0⟩
  | .groupClose => ⟨.parenthesisClose, ")", .point 0⟩
  | .name text => ⟨.functionName, text, .point 0⟩
  | .argumentsOpen => ⟨.functionArgsStart, "(", .point 0⟩
  | .argumentsClose => ⟨.functionArgsEnd, ")", .point 0⟩
  | .comma => ⟨.argSeparator, ",", .point 0⟩

theorem Terminal.terminal?_token (terminal : Terminal) :
    terminal.token.lexeme.terminal? = some terminal := by
  cases terminal with
  | joint joint => cases joint <;> simp [token, Token.lexeme, Lexeme.terminal?]
  | _ => rfl

theorem Terminal.reads_token (terminals : List Terminal) :
    Builder.Reads (terminals.map token) terminals := by
  simp [Builder.Reads, Function.comp_def, terminal?_token]

end Grammar

namespace Control

/-- A scope of this kind is closed by this terminal. -/
def closing : ScopeKind → Terminal
  | .group => .groupClose
  | .call => .argumentsClose

/-- These terminals complete a formula from each control. -/
def completion : Control → List Terminal
  | ⟨.expectArguments, scopes⟩ => .argumentsOpen :: .number "0" :: scopes.map closing
  | ⟨.expectValue, scopes⟩ => .number "0" :: scopes.map closing
  | ⟨.afterValue, scopes⟩ => scopes.map closing

theorem run_closing (scopes : List ScopeKind) :
    run ⟨.afterValue, scopes⟩ (scopes.map closing) = some done := by
  induction scopes with
  | nil => rfl
  | cons kind scopes inductionHypothesis => cases kind <;> exact inductionHypothesis

theorem run_completion (control : Control) : control.run control.completion = some done := by
  obtain ⟨phase, scopes⟩ := control
  cases phase <;> exact run_closing scopes

end Control

namespace Builder

variable {builder fed : Builder} {token : Token} {tokens : List Token}

/-- A list is refused at the first token that the builder does not take. -/
theorem feedAll_error_iff (builder : Builder) (tokens : List Token) (error : ParseError) :
    builder.feedAll tokens = .error error ↔
      ∃ before token after middle, tokens = before ++ token :: after ∧
        builder.feedAll before = .ok middle ∧ middle.feed token = .error error := by
  induction tokens generalizing builder with
  | nil => simp [feedAll]
  | cons first rest inductionHypothesis =>
      rw [feedAll]
      cases result : builder.feed first with
      | error refused =>
          constructor
          · intro same
            exact ⟨[], first, rest, builder, rfl, rfl, result.trans same⟩
          · rintro ⟨before, token, after, middle, split, taken, stopped⟩
            cases before with
            | nil =>
                cases split
                cases taken
                exact result.symm.trans stopped
            | cons second before =>
                cases split
                simp [feedAll, result] at taken
      | ok next =>
          simp only [inductionHypothesis]
          constructor
          · rintro ⟨before, token, after, middle, rfl, taken, stopped⟩
            refine ⟨first :: before, token, after, middle, rfl, ?_, stopped⟩
            rw [feedAll, result]
            exact taken
          · rintro ⟨before, token, after, middle, split, taken, stopped⟩
            cases before with
            | nil =>
                cases split
                cases taken
                simp [result] at stopped
            | cons second before =>
                cases split
                rw [feedAll, result] at taken
                exact ⟨before, token, after, middle, rfl, taken, stopped⟩

/-- A list that is taken can be cut behind each of its tokens. -/
theorem feedAll_of_append {first second : List Token}
    (success : builder.feedAll (first ++ second) = .ok fed) :
    ∃ middle, builder.feedAll first = .ok middle ∧ middle.feedAll second = .ok fed := by
  cases result : builder.feedAll first with
  | ok middle => exact ⟨middle, rfl, (feedAll_append result).symm.trans success⟩
  | error error =>
      obtain ⟨before, token, after, middle, rfl, taken, stopped⟩ :=
        (feedAll_error_iff builder first error).mp result
      have refused := (feedAll_error_iff builder (before ++ token :: after ++ second) error).mpr
        ⟨before, token, after ++ second, middle, by simp, taken, stopped⟩
      cases refused.symm.trans success

/-- A call is named but its argument list is not open yet. -/
def unopened : ParsePhase → Nat
  | .expectArguments => 1
  | .expectValue | .afterValue => 0

/-- A token that is taken fixes the phase, and it opens or closes at most one scope. -/
theorem feed_counts (success : builder.feed token = .ok fed) :
    fed.phase = token.kind.phaseAfter ∧
      fed.scopes.length + (if token.kind.closes then 1 else 0) + unopened builder.phase =
        builder.scopes.length + (if token.kind.opens then 1 else 0) + unopened fed.phase := by
  obtain ⟨precedence, tree, phase, cursor, scopes⟩ := builder
  obtain ⟨kind, text, span⟩ := token
  cases kind with
  | operator =>
      cases phase <;> cases same : Operator.ofSymbol? text <;>
        simp [feed, plan, same, Except.map] at success
      subst success
      exact ⟨rfl, rfl⟩
  | functionArgsEnd | argSeparator | parenthesisClose =>
      rcases scopes with _ | ⟨⟨node, _ | _⟩, outer⟩ <;> cases phase <;>
        simp [feed, plan, Except.map] at success
      subst success
      exact ⟨rfl, rfl⟩
  | _ =>
      cases phase <;> simp [feed, plan, Except.map] at success
      subst success
      exact ⟨rfl, rfl⟩

/-- The tokens that a builder has taken fix its phase and the number of its scopes. -/
theorem feedAll_counts {precedence : Precedence}
    (success : (start precedence).feedAll tokens = .ok fed) :
    fed.phase = Token.phaseAfter tokens ∧
      fed.scopes.length + Token.closed tokens = Token.opened tokens + unopened fed.phase := by
  induction tokens using List.reverseRecOn generalizing fed with
  | nil =>
      cases success
      exact ⟨rfl, rfl⟩
  | append_singleton tokens token inductionHypothesis =>
      obtain ⟨middle, before, last⟩ := feedAll_of_append success
      obtain ⟨-, balance⟩ := inductionHypothesis before
      have taken : middle.feed token = .ok fed := by
        rw [feedAll] at last
        cases result : middle.feed token with
        | ok next => simpa [result, feedAll] using last
        | error error => simp [result] at last
      obtain ⟨phase, step⟩ := feed_counts taken
      refine ⟨by rw [phase, Token.phaseAfter_concat], ?_⟩
      simp only [Token.closed, Token.opened, List.countP_append, List.countP_singleton] at balance ⊢
      omega

/-- A refused token is an unknown sign behind a value, or it has no place in this phase. -/
theorem feed_error {error : ParseError} (refused : builder.feed token = .error error) :
    (token.kind = .operator ∧ builder.phase = .afterValue ∧
        error = .unknownOperator token.text token.span.start) ∨
      ((token.kind = .operator → builder.phase ≠ .afterValue) ∧
        error = .unexpected token builder.phase) := by
  obtain ⟨precedence, tree, phase, cursor, scopes⟩ := builder
  obtain ⟨kind, text, span⟩ := token
  cases kind with
  | operator =>
      cases phase <;> cases same : Operator.ofSymbol? text <;>
        simp [feed, plan, same, Except.map] at refused <;> simp [refused]
  | functionArgsEnd | argSeparator | parenthesisClose =>
      rcases scopes with _ | ⟨⟨node, _ | _⟩, outer⟩ <;> cases phase <;>
        simp [feed, plan, Except.map] at refused <;> simp [refused]
  | _ =>
      cases phase <;> simp [feed, plan, Except.map] at refused <;> simp [refused]

/-- A builder takes exactly the starts of formulas. -/
theorem feedAll_ok_iff_viable (precedence : Precedence) (tokens : List Token) :
    (∃ fed, (start precedence).feedAll tokens = .ok fed) ↔ Token.Viable tokens := by
  constructor
  · rintro ⟨fed, success⟩
    obtain ⟨last, finished, ended⟩ := fed.feedAll_of_run
      (Terminal.reads_token fed.control.completion) fed.control.run_completion
    refine ⟨fed.control.completion.map Terminal.token, ?_⟩
    apply (Tree.ofTokens_ok_iff precedence _).mp
    refine ⟨last.tree, ?_⟩
    rw [Tree.ofTokens, feedAll_append success, finished]
    exact (last.finish_ok_iff last.tree).mpr ⟨ended, rfl⟩
  · rintro ⟨more, derivable⟩
    obtain ⟨tree, accepted⟩ := (Tree.ofTokens_ok_iff precedence (tokens ++ more)).mpr derivable
    rw [Tree.ofTokens] at accepted
    split at accepted
    case h_2 => simp at accepted
    case h_1 builder fed =>
      obtain ⟨middle, success, -⟩ := feedAll_of_append fed
      exact ⟨middle, success⟩

/-- The end is refused before a value is complete, or inside of scopes. -/
theorem finish_error_iff (builder : Builder) (error : ParseError) :
    builder.finish = .error error ↔
      (builder.phase ≠ .afterValue ∧ error = .unexpectedEnd builder.phase) ∨
        (builder.phase = .afterValue ∧ 0 < builder.scopes.length ∧
          error = .unclosedScope builder.scopes.length) := by
  obtain ⟨precedence, tree, phase, cursor, scopes⟩ := builder
  cases phase <;> cases scopes <;> simp [finish, eq_comm]

/-- A refused token cannot stand behind the tokens that were taken. -/
theorem not_viable_of_feed_error {precedence : Precedence} {error : ParseError}
    (success : (start precedence).feedAll tokens = .ok builder)
    (refused : builder.feed token = .error error) : ¬ Token.Viable (tokens ++ [token]) := by
  rw [← feedAll_ok_iff_viable precedence]
  rintro ⟨fed, longer⟩
  rw [feedAll_append success, feedAll, refused] at longer
  simp at longer

theorem feed_error_of_not_viable {precedence : Precedence}
    (success : (start precedence).feedAll tokens = .ok builder)
    (stuck : ¬ Token.Viable (tokens ++ [token])) : ∃ error, builder.feed token = .error error := by
  cases result : builder.feed token with
  | error error => exact ⟨error, rfl⟩
  | ok fed =>
      refine absurd ((feedAll_ok_iff_viable precedence _).mp ⟨fed, ?_⟩) stuck
      rw [feedAll_append success]
      exact feedAll_singleton result

/-- A token is refused where the report says. -/
theorem reports_of_feedAll_error {precedence : Precedence} {error : ParseError}
    (refused : (start precedence).feedAll tokens = .error error) : error.Reports tokens := by
  obtain ⟨before, token, after, builder, split, taken, stopped⟩ :=
    (feedAll_error_iff _ tokens error).mp refused
  have viable := (feedAll_ok_iff_viable precedence before).mp ⟨builder, taken⟩
  have stuck := not_viable_of_feed_error taken stopped
  have phase := (feedAll_counts taken).1
  rcases feed_error stopped with ⟨sign, placed, rfl⟩ | ⟨misplaced, rfl⟩
  · exact .unknownOperator before token after split viable stuck sign (phase ▸ placed)
  · rw [phase] at misplaced ⊢
    exact .unexpectedToken before token after split viable stuck misplaced

/-- The end is refused as the report says. -/
theorem reports_of_finish_error {precedence : Precedence} {error : ParseError}
    (success : (start precedence).feedAll tokens = .ok builder)
    (refused : builder.finish = .error error) : error.Reports tokens := by
  have viable := (feedAll_ok_iff_viable precedence tokens).mp ⟨builder, success⟩
  obtain ⟨phase, balance⟩ := feedAll_counts success
  rcases (finish_error_iff builder error).mp refused with
    ⟨incomplete, rfl⟩ | ⟨complete, positive, rfl⟩
  · rw [phase] at incomplete ⊢
    exact .unexpectedEnd viable incomplete
  · rw [complete, unopened] at balance
    exact .unclosedScope _ viable (phase ▸ complete) positive (by omega)

end Builder

open Builder

theorem Tree.ofTokens_error_iff (precedence : Precedence) (tokens : List Token)
    (error : ParseError) :
    Tree.ofTokens precedence tokens = .error error ↔
      (start precedence).feedAll tokens = .error error ∨
        ∃ builder, (start precedence).feedAll tokens = .ok builder ∧
          builder.finish = .error error := by
  rw [Tree.ofTokens]
  cases (start precedence).feedAll tokens <;> simp

/-- The builder refuses each list as the report says. -/
theorem ParseError.Reports.ofTokens_eq {error : ParseError} {tokens : List Token}
    (reports : error.Reports tokens) (precedence : Precedence) :
    Tree.ofTokens precedence tokens = .error error := by
  rw [Tree.ofTokens_error_iff, feedAll_error_iff]
  cases reports with
  | unexpectedToken before token after split viable stuck misplaced =>
      obtain ⟨builder, taken⟩ := (feedAll_ok_iff_viable precedence before).mpr viable
      obtain ⟨error, stopped⟩ := feed_error_of_not_viable taken stuck
      have phase := (feedAll_counts taken).1
      rcases feed_error stopped with ⟨sign, placed, -⟩ | ⟨-, rfl⟩
      · exact absurd (phase ▸ placed) (misplaced sign)
      · rw [phase] at stopped
        exact .inl ⟨before, token, after, builder, split, taken, stopped⟩
  | unknownOperator before token after split viable stuck sign placed =>
      obtain ⟨builder, taken⟩ := (feedAll_ok_iff_viable precedence before).mpr viable
      obtain ⟨error, stopped⟩ := feed_error_of_not_viable taken stuck
      have phase := (feedAll_counts taken).1
      rcases feed_error stopped with ⟨-, -, rfl⟩ | ⟨misplaced, -⟩
      · exact .inl ⟨before, token, after, builder, split, taken, stopped⟩
      · exact absurd (phase.trans placed) (misplaced sign)
  | unexpectedEnd viable incomplete =>
      obtain ⟨builder, taken⟩ := (feedAll_ok_iff_viable precedence tokens).mpr viable
      have phase := (feedAll_counts taken).1
      refine .inr ⟨builder, taken, (finish_error_iff builder _).mpr (.inl ?_)⟩
      rw [phase]
      exact ⟨incomplete, rfl⟩
  | unclosedScope count viable complete positive unclosed =>
      obtain ⟨builder, taken⟩ := (feedAll_ok_iff_viable precedence tokens).mpr viable
      obtain ⟨phase, balance⟩ := feedAll_counts taken
      rw [complete] at phase
      rw [phase, unopened] at balance
      have length : builder.scopes.length = count := by omega
      refine .inr ⟨builder, taken, (finish_error_iff builder _).mpr (.inr ?_)⟩
      rw [length]
      exact ⟨phase, positive, rfl⟩

/-- A token list gives a tree exactly when the grammar derives it. Any other list is refused at its
first token that no formula has there, or at its end when all tokens were taken. -/
theorem Tree.ofTokens_refuses_earliest (precedence : Precedence) (tokens : List Token) :
    ((∃ tree, Tree.ofTokens precedence tokens = .ok tree) ↔ Token.Derivable tokens) ∧
      ((∃ builder, (Builder.start precedence).feedAll tokens = .ok builder) ↔
        Token.Viable tokens) ∧
      ∀ error, Tree.ofTokens precedence tokens = .error error ↔ error.Reports tokens := by
  refine ⟨Tree.ofTokens_ok_iff precedence tokens, feedAll_ok_iff_viable precedence tokens, ?_⟩
  intro error
  constructor
  · intro refused
    rcases (Tree.ofTokens_error_iff precedence tokens error).mp refused with
      stopped | ⟨builder, success, ended⟩
    · exact reports_of_feedAll_error stopped
    · exact reports_of_finish_error success ended
  · intro reports
    exact reports.ofTokens_eq precedence

end GlslFormula
