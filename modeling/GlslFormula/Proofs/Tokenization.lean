import GlslFormula.Proofs.Coverage
import GlslFormula.Proofs.Reading

namespace GlslFormula

theorem Operator.exists_sign (operator : Operator) :
    ∃ c : Char, operator.symbol = c.toString ∧ (CharClass.ofChar c).isOperator = true := by
  cases operator
  · exact ⟨'+', rfl, rfl⟩
  · exact ⟨'-', rfl, rfl⟩
  · exact ⟨'*', rfl, rfl⟩
  · exact ⟨'/', rfl, rfl⟩
  · exact ⟨'^', rfl, rfl⟩

/-- A sign, a comma or a closing bracket ends each pending value. -/
theorem Lexeme.interrupts {lexeme : Lexeme} (wellFormed : lexeme.WellFormed)
    (closing : lexeme.kind ∈
      [TokenKind.operator, .parenthesisClose, .functionArgsEnd, .argSeparator])
    (phase : ScanPhase) (rest : List Char) : phase.Interrupted (lexeme.text.toList ++ rest) := by
  obtain ⟨kind, text⟩ := lexeme
  simp only [List.mem_cons, List.not_mem_nil, or_false] at closing
  rcases closing with rfl | rfl | rfl | rfl
  · obtain ⟨operator, rfl⟩ := wellFormed
    obtain ⟨c, isSymbol, isSign⟩ := operator.exists_sign
    rw [isSymbol]
    intro d head
    obtain rfl : c = d := by simpa using head
    cases phase <;> cases isClass : CharClass.ofChar c <;>
      simp [isClass, CharClass.isOperator] at isSign <;> rfl
  · obtain rfl : text = ")" := wellFormed
    rintro d ⟨⟩
    cases phase <;> rfl
  · obtain rfl : text = ")" := wellFormed
    rintro d ⟨⟩
    cases phase <;> rfl
  · obtain rfl : text = "," := wellFormed
    rintro d ⟨⟩
    cases phase <;> rfl

theorem Lexeme.text_of_implicitMultiply {lexeme : Lexeme} (wellFormed : lexeme.WellFormed)
    (adjacent : lexeme.kind = .implicitMultiply) : lexeme.text.toList = [] := by
  rw [WellFormed, adjacent] at wellFormed
  rw [show lexeme.text = "" from wellFormed]
  rfl

/-- A name starts with a letter, and a group with its bracket. -/
theorem Lexeme.starts_factor {lexeme : Lexeme} (wellFormed : lexeme.WellFormed)
    (factor : lexeme.kind ∈ [TokenKind.symbol, .functionName, .parenthesisOpen])
    (rest : List Char) :
    ∃ c tail, lexeme.text.toList ++ rest = c :: tail ∧
      (CharClass.ofChar c = .letter ∨ CharClass.ofChar c = .openParen) := by
  obtain ⟨kind, text⟩ := lexeme
  simp only [List.mem_cons, List.not_mem_nil, or_false] at factor
  rcases factor with rfl | rfl | rfl
  · obtain ⟨first, others, spelled, isAlpha, -⟩ := wellFormed
    exact ⟨first, others ++ rest, by simp [spelled],
      .inl ((CharClass.ofChar_eq_letter_iff first).mpr isAlpha)⟩
  · obtain ⟨first, others, spelled, isAlpha, -⟩ := wellFormed
    exact ⟨first, others ++ rest, by simp [spelled],
      .inl ((CharClass.ofChar_eq_letter_iff first).mpr isAlpha)⟩
  · obtain rfl : text = "(" := wellFormed
    exact ⟨'(', rest, rfl, .inr rfl⟩

/-- A blank ends each pending value. -/
theorem ScanPhase.interrupted_gap {phase : ScanPhase} {gap rest : List Char} (isGap : IsGap gap)
    (ended : gap = [] → phase.Interrupted rest) : phase.Interrupted (gap ++ rest) := by
  cases gap with
  | nil => exact ended rfl
  | cons c gap =>
      rintro d ⟨⟩
      rcases isGap c (by simp) with rfl | rfl <;> cases phase <;> rfl

/-- Behind a value stands an operator, a comma or a closing bracket. -/
theorem Control.kind_of_step {control next : Control} {lexeme : Lexeme}
    {terminal : Grammar.Terminal} (after : control.phase = .afterValue)
    (known : lexeme.terminal? = some terminal) (stepped : control.step terminal = some next) :
    lexeme.kind ∈ [TokenKind.operator, .parenthesisClose, .functionArgsEnd, .argSeparator] ∨
      lexeme.kind = .implicitMultiply := by
  obtain ⟨phase, scopes⟩ := control
  obtain ⟨kind, text⟩ := lexeme
  obtain rfl : phase = .afterValue := after
  cases kind with
  | number | symbol | parenthesisOpen | functionName | functionArgsStart =>
      cases known
      simp [Control.step] at stepped
  | _ => simp

/-- A joint stands behind a value. -/
theorem Control.phase_of_joint {control next : Control} {joint : Grammar.Joint}
    (taken : control.step (.joint joint) = some next) : control.phase = .afterValue := by
  obtain ⟨phase, scopes⟩ := control
  cases phase with
  | afterValue => rfl
  | expectValue | expectArguments => simp [Control.step] at taken

/-- Behind the name of a function or a multiplication the formula goes on. -/
theorem Control.phase_ne_afterValue {control next : Control} {lexeme : Lexeme}
    {terminal : Grammar.Terminal} (known : lexeme.terminal? = some terminal)
    (stepped : control.step terminal = some next)
    (unfinished : lexeme.kind = .functionName ∨ lexeme.kind = .implicitMultiply) :
    next.phase ≠ .afterValue := by
  obtain ⟨phase, scopes⟩ := control
  obtain ⟨kind, text⟩ := lexeme
  rcases unfinished with rfl | rfl <;> cases known <;> cases phase <;>
    simp [Control.step] at stepped <;> subst stepped <;> simp

theorem Control.phase_of_value {token : Token} {earlier : List Token} {control : Control}
    (reached : after? (token :: earlier) = some control)
    (value : token.kind = .number ∨ token.kind = .symbol) : control.phase = .afterValue := by
  obtain ⟨before, -, stepped⟩ := Option.bind_eq_some_iff.mp reached
  obtain ⟨terminal, known, taken⟩ := Option.bind_eq_some_iff.mp stepped
  obtain ⟨phase, scopes⟩ := before
  obtain ⟨kind, text, span⟩ := token
  rcases value with rfl | rfl <;> cases known <;> cases phase <;>
    simp [Control.step] at taken <;> subst taken <;> rfl

theorem ScanPhase.number_or_symbol {phase : ScanPhase} {kind : TokenKind}
    (read : phase.valueKind? = some kind) : kind = .number ∨ kind = .symbol := by
  cases phase <;> cases read
  case inIdentifier => exact .inr rfl
  all_goals exact .inl rfl

/-- The scanner knows where the lexeme ends before it reads the rest. -/
structure Lexeme.EndsBefore (last : Lexeme) (gap rest : List Char) : Prop where
  value : ∀ phase : ScanPhase, phase.valueKind? = some last.kind → phase.Interrupted (gap ++ rest)
  touches : last.kind = .functionName → gap = []
  factor : last.kind = .implicitMultiply → ∃ c tail, rest = c :: tail ∧
    (CharClass.ofChar c = .letter ∨ CharClass.ofChar c = .openParen)

namespace Layout

/-- The rest of the source may stand behind the last lexeme. -/
def Suits : Layout → List Char → Prop
  | .start _, _ => True
  | .put _ last gap, rest => last.EndsBefore gap rest

theorem after?_put {before : Layout} {lexeme : Lexeme} {gap : List Char} {control : Control}
    (reached : Control.after? (before.put lexeme gap).emitted = some control) :
    ∃ previous terminal, Control.after? before.emitted = some previous ∧
      lexeme.terminal? = some terminal ∧ previous.step terminal = some control := by
  obtain ⟨previous, first, stepped⟩ := Option.bind_eq_some_iff.mp reached
  obtain ⟨terminal, known, taken⟩ := Option.bind_eq_some_iff.mp stepped
  exact ⟨previous, terminal, first, known, taken⟩

/-- A layout that reaches the end of a value is closed. -/
theorem closed_of_afterValue {layout : Layout} {control : Control}
    (reached : Control.after? layout.emitted = some control)
    (complete : control.phase = .afterValue) : layout.Closed := by
  cases layout with
  | start gap => trivial
  | put before last gap =>
      obtain ⟨previous, terminal, -, known, taken⟩ := after?_put reached
      constructor
      · intro named
        exact Control.phase_ne_afterValue known taken (.inl named) complete
      · intro factor
        exact Control.phase_ne_afterValue known taken (.inr factor) complete

/-- Each lexeme is read with its gap. -/
theorem passes_put {before : Layout} {lexeme : Lexeme} {gap rest : List Char}
    {scanner : Scanner} {terminal : Grammar.Terminal} {previous next : Control}
    (stands : scanner.At before.source.length before.emitted previous)
    (known : lexeme.terminal? = some terminal) (stepped : previous.step terminal = some next)
    (wellFormed : lexeme.WellFormed) (isGap : IsGap gap)
    (suits : (before.put lexeme gap).Suits rest) :
    scanner.Passes before.source.length (lexeme.text.toList ++ gap) rest
      (before.put lexeme gap).emitted next := by
  obtain ⟨kind, text⟩ := lexeme
  obtain ⟨phase, scopes⟩ := previous
  cases kind with
  | number =>
      cases known
      cases phase <;> simp [Control.step] at stepped
      subst stepped
      rcases wellFormed with isInteger | isDecimal
      · exact stands.value (ScanPhase.spells_integer isInteger) rfl (suits.value _ rfl) isGap
      · exact stands.value (ScanPhase.spells_decimal isDecimal) rfl (suits.value _ rfl) isGap
  | symbol =>
      cases known
      cases phase <;> simp [Control.step] at stepped
      subst stepped
      exact stands.value (ScanPhase.spells_identifier wellFormed) rfl (suits.value _ rfl) isGap
  | operator =>
      obtain ⟨operator, rfl⟩ := wellFormed
      simp only [Lexeme.terminal?, Operator.ofSymbol?_symbol, Option.map_some] at known
      cases known
      cases phase <;> simp [Control.step] at stepped
      subst stepped
      obtain ⟨c, isSymbol, isSign⟩ := operator.exists_sign
      rw [isSymbol]
      have passes := stands.sign rest isSign isGap
      simpa [emitted, Span.single] using passes
  | implicitMultiply =>
      cases known
      cases phase <;> simp [Control.step] at stepped
      subst stepped
      obtain rfl : text = "" := wellFormed
      obtain ⟨c, tail, rfl, factor⟩ := suits.factor rfl
      exact stands.multiply factor isGap
  | parenthesisOpen =>
      cases known
      cases phase <;> simp [Control.step] at stepped
      subst stepped
      obtain rfl : text = "(" := wellFormed
      exact stands.groupOpen isGap
  | parenthesisClose =>
      cases known
      obtain rfl : text = ")" := wellFormed
      cases phase <;> rcases scopes with _ | ⟨_ | _, scopes⟩ <;> simp [Control.step] at stepped
      subst stepped
      exact stands.close .group isGap
  | functionName =>
      cases known
      cases phase <;> simp [Control.step] at stepped
      subst stepped
      obtain rfl := suits.touches rfl
      rw [List.append_nil]
      exact stands.name (ScanPhase.spells_identifier wellFormed)
  | functionArgsStart =>
      cases known
      cases phase <;> simp [Control.step] at stepped
      subst stepped
      obtain rfl : text = "(" := wellFormed
      exact stands.argumentsOpen isGap
  | functionArgsEnd =>
      cases known
      obtain rfl : text = ")" := wellFormed
      cases phase <;> rcases scopes with _ | ⟨_ | _, scopes⟩ <;> simp [Control.step] at stepped
      subst stepped
      exact stands.close .arguments isGap
  | argSeparator =>
      cases known
      obtain rfl : text = "," := wellFormed
      cases phase <;> rcases scopes with _ | ⟨_ | _, scopes⟩ <;> simp [Control.step] at stepped
      subst stepped
      exact stands.comma isGap

/-- What stands behind a lexeme suits the lexeme before it. -/
theorem suits_before {before : Layout} {lexeme : Lexeme} {gap rest : List Char}
    {terminal : Grammar.Terminal} {previous next : Control}
    (reached : Control.after? before.emitted = some previous)
    (known : lexeme.terminal? = some terminal) (stepped : previous.step terminal = some next)
    (wellFormed : lexeme.WellFormed) (spaced : (before.put lexeme gap).Spaced)
    (suits : (before.put lexeme gap).Suits rest) :
    before.Suits (lexeme.text.toList ++ (gap ++ rest)) := by
  obtain ⟨earlier, isGap, admitted⟩ := spaced
  cases before with
  | start first => trivial
  | put first last lastGap =>
      obtain ⟨touches, factor, parted⟩ := admitted
      constructor
      · intro phase read
        apply ScanPhase.interrupted_gap earlier.2.1
        intro noGap
        have value := ScanPhase.number_or_symbol read
        rcases Control.kind_of_step (Control.phase_of_value reached value) known stepped with
          closing | adjacent
        · exact Lexeme.interrupts wellFormed closing phase (gap ++ rest)
        · obtain ⟨c, tail, rfl, startsFactor⟩ := suits.factor adjacent
          rw [Lexeme.text_of_implicitMultiply wellFormed adjacent]
          apply ScanPhase.interrupted_gap isGap
          intro noGapEither
          rintro d ⟨⟩
          have notName : phase ≠ .inIdentifier := by
            rintro rfl
            exact parted (Option.some.inj read).symm adjacent (by rw [noGap, noGapEither]; rfl)
          rcases startsFactor with isClass | isClass <;> rw [isClass] <;> cases phase <;>
            first | rfl | exact absurd rfl notName
      · exact touches
      · intro adjacent
        exact Lexeme.starts_factor wellFormed (factor adjacent) (gap ++ rest)

/-- The scanner reads each layout up to its end. -/
theorem passes_source {layout : Layout} {control : Control} {rest : List Char}
    (proper : layout.Proper) (reached : Control.after? layout.emitted = some control)
    (suits : layout.Suits rest) :
    Scanner.start.Passes 0 layout.source rest layout.emitted control := by
  induction layout generalizing control rest with
  | start gap =>
      cases reached
      have read := Scanner.start.outcome?_gap 0 rest (.inl rfl) proper.spaced
      exact ⟨Scanner.start, ⟨rfl, rfl, rfl⟩, read⟩
  | put before lexeme gap inductionHypothesis =>
      obtain ⟨previous, terminal, first, known, taken⟩ := after?_put reached
      obtain ⟨shorter, wellFormed, isGap, -⟩ := proper.of_put
      have follows := suits_before first known taken wellFormed proper.spaced suits
      obtain ⟨scanner, stands, read⟩ := inductionHypothesis shorter first follows
      rw [Nat.zero_add] at stands read
      obtain ⟨next, nextStands, nextRead⟩ := passes_put stands known taken wellFormed isGap suits
      have length : before.source.length + (lexeme.text.toList ++ gap).length =
          0 + (before.put lexeme gap).source.length := by
        simp [source]
      rw [length] at nextStands nextRead
      have whole : Scanner.start.outcome? 0 ((before.put lexeme gap).source ++ rest) =
          next.outcome? (0 + (before.put lexeme gap).source.length) rest := by
        rw [← nextRead, List.append_assoc, ← read, source]
        simp only [List.append_assoc]
      exact ⟨next, nextStands, whole⟩

/-- A layout that ends behind a value may end the source. -/
theorem suits_nil {layout : Layout} {control : Control} (spaced : layout.Spaced)
    (reached : Control.after? layout.emitted = some control)
    (complete : control.phase = .afterValue) : layout.Suits [] := by
  cases layout with
  | start gap => trivial
  | put before last gap =>
      obtain ⟨notFunction, notFactor⟩ := closed_of_afterValue reached complete
      constructor
      · intro phase read
        exact ScanPhase.interrupted_gap spaced.2.1 (by simp [ScanPhase.Interrupted])
      · intro named
        exact absurd named notFunction
      · intro factor
        exact absurd factor notFactor

/-- Each complete layout is read back. -/
theorem tokenize_source {layout : Layout} {formula : String} (proper : layout.Proper)
    (complete : Control.after? layout.emitted = some .done)
    (same : layout.source = formula.toList) :
    tokenize formula = .ok layout.emitted.reverse := by
  rw [Scanner.tokenize_ok_iff, ← same]
  have suits := suits_nil proper.spaced complete rfl
  obtain ⟨scanner, ⟨after, brackets, emitted⟩, read⟩ := passes_source proper complete suits
  rw [List.append_nil] at read
  rw [read, Scanner.outcome?_eq_some_iff]
  have ended : scanner.phase.isComplete = true := by rw [after]; rfl
  have closed : scanner.brackets = [] := List.map_eq_nil_iff.mp brackets
  refine ⟨scanner, rfl, ended, closed, ?_⟩
  rw [Scanner.ready_of_afterValue _ after, Scanner.tokens, emitted]

end Layout

/-- The tokens of an accepted formula have a complete layout. -/
theorem exists_layout_of_tokenize {formula : String} {tokens : List Token}
    (accepted : tokenize formula = .ok tokens) :
    ∃ layout : Layout, layout.Proper ∧ Control.after? layout.emitted = some .done ∧
      layout.source = formula.toList ∧ layout.emitted.reverse = tokens := by
  rw [Scanner.tokenize_ok_iff, Scanner.outcome?_eq_some_iff] at accepted
  obtain ⟨last, read, complete, empty, rfl⟩ := accepted
  obtain ⟨layout, text, covers⟩ := Scanner.start_covers.run read
  obtain ⟨settled, settles⟩ := covers.settles complete
  have reached : Control.after? settled.emitted = some .done := by
    have inStep := (Scanner.start_inStep.read read).ready formula.toList.length complete
    rw [Scanner.InStep, Scanner.control, Scanner.ready_brackets, empty] at inStep
    rw [← settles.shown.2]
    exact inStep
  have same : settled.emitted.reverse = (last.ready (0 + formula.toList.length)).tokens := by
    rw [Scanner.tokens, Nat.zero_add]
    exact congrArg List.reverse settles.shown.2.symm
  exact ⟨settled, settles.shown.1, reached, settles.read, same⟩

/-- The tokens of a formula are exactly those of its complete layouts. -/
theorem tokenize_ok_iff_layout (formula : String) (tokens : List Token) :
    tokenize formula = .ok tokens ↔
      ∃ layout : Layout, layout.Proper ∧ Control.after? layout.emitted = some .done ∧
        layout.source = formula.toList ∧ layout.emitted.reverse = tokens := by
  constructor
  · exact exists_layout_of_tokenize
  · rintro ⟨layout, proper, complete, same, rfl⟩
    exact layout.tokenize_source proper complete same

/-- Each token of an accepted formula has a text of its kind. -/
theorem wellFormed_of_tokenize {formula : String} {tokens : List Token}
    (accepted : tokenize formula = .ok tokens) : ∀ token ∈ tokens, token.lexeme.WellFormed := by
  obtain ⟨layout, proper, -, -, rfl⟩ := (tokenize_ok_iff_layout formula tokens).mp accepted
  intro token member
  apply proper.wellFormed
  rw [← layout.emitted_lexemes]
  exact List.mem_map_of_mem member

/-- A formula has these kinds and texts exactly when the grammar derives them, each text has the
form of its kind, and the formula is a spaced layout of them. -/
theorem tokenize_lexemes_iff (formula : String) (lexemes : List Lexeme) :
    (∃ tokens, tokenize formula = .ok tokens ∧ tokens.map Token.lexeme = lexemes) ↔
      (∃ chain : Grammar.Chain, chain.Derives lexemes) ∧
        (∀ lexeme ∈ lexemes, lexeme.WellFormed) ∧
        ∃ layout : Layout, layout.lexemes = lexemes ∧ layout.Spaced ∧
          layout.source = formula.toList := by
  constructor
  · rintro ⟨tokens, accepted, rfl⟩
    obtain ⟨layout, proper, complete, same, rfl⟩ :=
      (tokenize_ok_iff_layout formula tokens).mp accepted
    rw [← List.reverse_reverse layout.emitted, Control.after?_eq_done_iff] at complete
    have wellFormed : ∀ lexeme ∈ layout.emitted.reverse.map Token.lexeme, lexeme.WellFormed := by
      rw [layout.emitted_lexemes]
      exact proper.wellFormed
    exact ⟨complete, wellFormed, layout, layout.emitted_lexemes.symm, proper.spaced, same⟩
  · rintro ⟨derived, wellFormed, layout, rfl, spaced, same⟩
    rw [← layout.emitted_lexemes, ← Control.after?_eq_done_iff, List.reverse_reverse] at derived
    have accepted := (tokenize_ok_iff_layout formula layout.emitted.reverse).mpr
      ⟨layout, ⟨spaced, wellFormed⟩, derived, same, rfl⟩
    exact ⟨_, accepted, layout.emitted_lexemes⟩

end GlslFormula
