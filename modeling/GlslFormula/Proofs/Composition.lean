import GlslFormula.Proofs.Division
import GlslFormula.Proofs.Report

namespace GlslFormula

open Grammar Shader

namespace Layout

/-- Each lexeme may stand behind the last one. -/
def Open : Layout → Prop
  | .start _ => True
  | .put _ last _ => last.kind ∉ [TokenKind.symbol, .functionName, .implicitMultiply]

theorem Open.admits {layout : Layout} (isOpen : layout.Open) (lexeme : Lexeme)
    (gap : List Char) : layout.Admits lexeme gap := by
  cases layout with
  | start first => trivial
  | put before last lastGap =>
      simp only [Open, List.mem_cons, List.not_mem_nil, or_false, not_or] at isOpen
      obtain ⟨notSymbol, notFunction, notFactor⟩ := isOpen
      constructor
      · intro named
        exact absurd named notFunction
      · intro factor
        exact absurd factor notFactor
      · intro symbol
        exact absurd symbol notSymbol

theorem Open.closed {layout : Layout} (isOpen : layout.Open) : layout.Closed := by
  cases layout with
  | start first => trivial
  | put before last gap =>
      simp only [Open, List.mem_cons, List.not_mem_nil, or_false, not_or] at isOpen
      exact ⟨isOpen.2.1, isOpen.2.2⟩

/-- Blanks go behind the last lexeme. -/
def blanks (layout : Layout) (gap : List Char) : Layout := gap.foldl blank layout

@[simp] theorem source_blanks (layout : Layout) (gap : List Char) :
    (layout.blanks gap).source = layout.source ++ gap := by
  induction gap generalizing layout with
  | nil => simp [blanks]
  | cons c gap inductionHypothesis =>
      have longer := inductionHypothesis (layout.blank c)
      simpa [blanks] using longer

@[simp] theorem lexemes_blanks (layout : Layout) (gap : List Char) :
    (layout.blanks gap).lexemes = layout.lexemes := by
  induction gap generalizing layout with
  | nil => rfl
  | cons c gap inductionHypothesis =>
      have same := inductionHypothesis (layout.blank c)
      simpa [blanks] using same

theorem Proper.blanks {layout : Layout} {gap : List Char} (proper : layout.Proper)
    (isGap : IsGap gap) : (layout.blanks gap).Proper := by
  induction gap generalizing layout with
  | nil => exact proper
  | cons c gap inductionHypothesis =>
      exact inductionHypothesis (proper.blank (isGap c (by simp)))
        (fun d member => isGap d (by simp [member]))

theorem Open.blanks {layout : Layout} (isOpen : layout.Open) (gap : List Char) :
    (layout.blanks gap).Open := by
  induction gap generalizing layout with
  | nil => exact isOpen
  | cons c gap inductionHypothesis =>
      have openEnd : (layout.blank c).Open := by cases layout <;> exact isOpen
      exact inductionHypothesis openEnd

/-- One layout goes on behind another. -/
def append (first : Layout) : Layout → Layout
  | .start gap => first.blanks gap
  | .put before lexeme gap => (first.append before).put lexeme gap

@[simp] theorem source_append (first second : Layout) :
    (first.append second).source = first.source ++ second.source := by
  induction second with
  | start gap => exact source_blanks first gap
  | put before lexeme gap inductionHypothesis => simp [append, source, inductionHypothesis]

@[simp] theorem lexemes_append (first second : Layout) :
    (first.append second).lexemes = first.lexemes ++ second.lexemes := by
  induction second with
  | start gap => simp [append, lexemes]
  | put before lexeme gap inductionHypothesis => simp [append, lexemes, inductionHypothesis]

/-- Two layouts may stand side by side behind an open end. -/
theorem Proper.append {first second : Layout} (proper : first.Proper) (isOpen : first.Open)
    (properSecond : second.Proper) : (first.append second).Proper := by
  induction second with
  | start gap => exact proper.blanks properSecond.spaced
  | put before lexeme gap inductionHypothesis =>
      obtain ⟨shorter, wellFormed, isGap, admitted⟩ := properSecond.of_put
      refine (inductionHypothesis shorter).put wellFormed isGap ?_
      cases before with
      | start first => exact (isOpen.blanks first).admits lexeme gap
      | put earlier last lastGap => exact admitted

theorem Open.closed_append {first second : Layout} (isOpen : first.Open)
    (closed : second.Closed) : (first.append second).Closed := by
  cases second with
  | start gap => exact (isOpen.blanks gap).closed
  | put before lexeme gap => exact closed

theorem proper_start : (Layout.start []).Proper := ⟨by simp [Spaced, IsGap], by simp [lexemes]⟩

/-- A lexeme goes behind a layout without a gap. -/
def mark (layout : Layout) (kind : TokenKind) (text : String) : Layout :=
  layout.put ⟨kind, text⟩ []

@[simp] theorem source_mark (layout : Layout) (kind : TokenKind) (text : String) :
    (layout.mark kind text).source = layout.source ++ text.toList := by
  simp [mark, source]

@[simp] theorem lexemes_mark (layout : Layout) (kind : TokenKind) (text : String) :
    (layout.mark kind text).lexemes = layout.lexemes ++ [⟨kind, text⟩] := rfl

theorem Proper.mark {layout : Layout} {kind : TokenKind} {text : String} (proper : layout.Proper)
    (wellFormed : Lexeme.WellFormed ⟨kind, text⟩) (admitted : layout.Admits ⟨kind, text⟩ []) :
    (layout.mark kind text).Proper :=
  proper.put wellFormed (by simp [IsGap]) admitted

/-- A formula stands in brackets behind a layout. -/
def bracket (outer inner : Layout) : Layout :=
  ((outer.mark .parenthesisOpen "(").append inner).mark .parenthesisClose ")"

@[simp] theorem source_bracket (outer inner : Layout) :
    (outer.bracket inner).source = outer.source ++ '(' :: (inner.source ++ [')']) := by
  simp [bracket]

@[simp] theorem lexemes_bracket (outer inner : Layout) :
    (outer.bracket inner).lexemes = outer.lexemes ++
      ⟨.parenthesisOpen, "("⟩ :: (inner.lexemes ++ [⟨.parenthesisClose, ")"⟩]) := by
  simp [bracket]

theorem Proper.bracket {outer inner : Layout} (proper : outer.Proper)
    (admitted : outer.Admits ⟨.parenthesisOpen, "("⟩ []) (properInner : inner.Proper)
    (closed : inner.Closed) : (outer.bracket inner).Proper := by
  have openEnd : (outer.mark .parenthesisOpen "(").Open := by simp [Layout.mark, Open]
  have opened : (outer.mark .parenthesisOpen "(").Proper := proper.mark rfl admitted
  have inside := opened.append openEnd properInner
  exact inside.mark rfl ((openEnd.closed_append closed).admits (by simp))

end Layout

/-- This is the result of a formula with this expression. -/
def Expression.result (expression : Expression) : Except CompileError String :=
  expression.write.mapError .generate

namespace Grammar

/-- The formula is a layout of the chain. -/
structure Chain.Spells (chain : Chain) (layout : Layout) : Prop where
  proper : layout.Proper
  derives : chain.Derives layout.lexemes

theorem Chain.Spells.complete {chain : Chain} {layout : Layout} (spells : chain.Spells layout) :
    Control.after? layout.emitted = some .done := by
  rw [← List.reverse_reverse layout.emitted, Control.after?_eq_done_iff, layout.emitted_lexemes]
  exact ⟨chain, spells.derives⟩

/-- A formula ends with a value. -/
theorem Chain.Spells.closed {chain : Chain} {layout : Layout} (spells : chain.Spells layout) :
    layout.Closed :=
  Layout.closed_of_afterValue spells.complete rfl

/-- The layout of a chain is compiled as the expression of the chain is written. -/
theorem Chain.Spells.compile_eq {chain : Chain} {layout : Layout} {formula : String}
    (spells : chain.Spells layout) (same : layout.source = formula.toList)
    (precedence : Precedence) :
    compile precedence formula = (chain.expression precedence).result := by
  have scanned := layout.tokenize_source spells.proper spells.complete same
  have derived : chain.Derives (layout.emitted.reverse.map Token.lexeme) := by
    rw [layout.emitted_lexemes]
    exact spells.derives
  obtain ⟨tree, built, written⟩ := chain.generate_ofTokens precedence derived
  rw [compile, parse_of_tokenize scanned built, Expression.result, ← written]

theorem exists_spells_of_tokenize {formula : String} {tokens : List Token}
    (accepted : tokenize formula = .ok tokens) :
    ∃ (chain : Chain) (layout : Layout), chain.Spells layout ∧
      layout.source = formula.toList := by
  obtain ⟨layout, proper, complete, same, -⟩ :=
    (tokenize_ok_iff_layout formula tokens).mp accepted
  rw [← List.reverse_reverse layout.emitted, Control.after?_eq_done_iff,
    layout.emitted_lexemes] at complete
  obtain ⟨chain, derives⟩ := complete
  exact ⟨chain, layout, ⟨proper, derives⟩, same⟩

/-- Two groups are joined by a lexeme that may stand between them. -/
theorem Chain.Spells.join {left right : Chain} {first second : Layout} {joint : Joint}
    {kind : TokenKind} {text : String} (spellsLeft : left.Spells first)
    (spellsRight : right.Spells second)
    (known : Lexeme.terminal? ⟨kind, text⟩ = some (.joint joint))
    (wellFormed : Lexeme.WellFormed ⟨kind, text⟩) (notName : kind ≠ .functionName) :
    (Chain.join (.group left) joint (.single (.group right))).Spells
      ((((Layout.start []).bracket first).mark kind text).bracket second) := by
  have before := Layout.proper_start.bracket trivial spellsLeft.proper spellsLeft.closed
  have between : (((Layout.start []).bracket first).mark kind text).Proper :=
    before.mark wellFormed ⟨by simp, by simp, by simp⟩
  have admitted : (((Layout.start []).bracket first).mark kind text).Admits
      ⟨.parenthesisOpen, "("⟩ [] := by
    constructor
    · intro named
      exact absurd named notName
    · intro factor
      simp
    · intro symbol factor
      simp at factor
  refine ⟨between.bracket admitted spellsRight.proper spellsRight.closed, ?_⟩
  have derivesLeft := spellsLeft.derives
  have derivesRight := spellsRight.derives
  have opening : Lexeme.terminal? ⟨.parenthesisOpen, "("⟩ = some .groupOpen := rfl
  have closing : Lexeme.terminal? ⟨.parenthesisClose, ")"⟩ = some .groupClose := rfl
  rw [Chain.Derives] at derivesLeft derivesRight ⊢
  simp [Layout.lexemes, Chain.terminals, Value.terminals, derivesLeft, derivesRight, known,
    opening, closing]

/-- Two groups are the operands of the operator between them. -/
theorem Chain.expression_join (precedence : Precedence) (left right : Chain) (joint : Joint) :
    (Chain.join (.group left) joint (.single (.group right))).expression precedence =
      .operator joint.operator (left.expression precedence) (right.expression precedence) := by
  have tops : precedence.Tops (Chain.single (.group left)).operators joint.operator
      (Chain.single (.group right)).operators := ⟨by simp [operators], by simp [operators]⟩
  have divided := Chain.expression_append tops
  rw [Chain.expression_single, Chain.expression_single] at divided
  exact divided

end Grammar

/-- An operation on two results fails with the first of their errors. -/
def combine (name : String) (first second : Except CompileError String) :
    Except CompileError String := do
  let left ← first
  let right ← second
  return name ++ "(" ++ left ++ ", " ++ right ++ ")"

/-- A call of a known function with the right number of arguments fails with the first of their
errors. -/
def combineCall (name : String) (results : List (Except CompileError String)) :
    Except CompileError String :=
  match functions.lookup name with
  | none => .error (.generate (.unknownOperation name))
  | some target =>
      if results.length = target.arity then do
        let outputs ← results.mapM id
        return target.name ++ "(" ++ ", ".intercalate outputs ++ ")"
      else .error (.generate (.arityMismatch name target.arity results.length))

theorem lookup_operators (operator : Operator) :
    ∃ target, operators.lookup operator.symbol = some target ∧ target.arity = 2 := by
  cases operator <;> exact ⟨_, rfl, rfl⟩

/-- An operator combines the results of its operands. -/
theorem result_operator {operator : Operator} {target : Target}
    (known : operators.lookup operator.symbol = some target) (left right : Expression) :
    (Expression.operator operator left right).result =
      combine target.name left.result right.result := by
  have found : operation? operator.symbol = some target := by
    rw [operation?, List.lookup_append, known]
    rfl
  obtain ⟨other, same, binary⟩ := lookup_operators operator
  obtain rfl : target = other := Option.some.inj (known.symm.trans same)
  rw [Expression.result, Expression.write, apply, found]
  unfold Expression.result
  cases left.write <;> cases right.write <;>
    simp [combine, binary, join, Except.mapError, Except.map, Except.bind, bind, pure,
      Except.pure, String.append_assoc]

/-- A list with a first result gives a first output. -/
theorem ne_nil_of_mapM {first : Except CompileError String}
    {rest : List (Except CompileError String)} {outputs : List String}
    (success : (first :: rest).mapM id = .ok outputs) : outputs ≠ [] := by
  rintro rfl
  rw [List.mapM_cons] at success
  cases first with
  | error error => simp [bind, Except.bind] at success
  | ok text =>
      cases remaining : rest.mapM id <;>
        simp [remaining, bind, Except.bind, pure, Except.pure] at success

/-- The arguments of a call are written one after the other. -/
theorem mapM_result (expressions : List Expression) :
    ((expressions.map Expression.result).mapM id).map (", ".intercalate ·) =
      (Expression.writeAll expressions).mapError CompileError.generate := by
  induction expressions with
  | nil => rfl
  | cons expression rest tail =>
      rw [List.map_cons, List.mapM_cons, Expression.result]
      cases rest with
      | nil =>
          rw [Expression.writeAll]
          cases expression.write <;>
            simp [Except.mapError, Except.map, bind, Except.bind, pure, Except.pure]
      | cons next rest =>
          rw [Expression.writeAll]
          cases expression.write with
          | error error => rfl
          | ok text =>
              cases others : ((next :: rest).map Expression.result).mapM id with
              | error error =>
                  rw [others] at tail
                  cases written : Expression.writeAll (next :: rest) <;>
                    simp [written, Except.mapError, Except.map] at tail
                  simp [join, tail, Except.mapError, Except.map, bind, Except.bind]
              | ok outputs =>
                  obtain ⟨first, outputs, rfl⟩ :=
                    List.exists_cons_of_ne_nil (ne_nil_of_mapM others)
                  rw [others] at tail
                  cases written : Expression.writeAll (next :: rest) <;>
                    simp [written, Except.mapError, Except.map] at tail
                  simp [join, tail, Except.mapError, Except.map, bind, Except.bind, pure,
                    Except.pure]

/-- A call combines the results of its arguments. -/
theorem result_call {name : String} (isIdentifier : IsIdentifier name.toList)
    (arguments : List Expression) :
    (Expression.call name arguments).result =
      combineCall name (arguments.map Expression.result) := by
  have found : operation? name = functions.lookup name := by
    rw [operation?, List.lookup_append, lookup_operators_of_isIdentifier isIdentifier,
      Option.none_or]
  have written := mapM_result arguments
  rw [Expression.result, Expression.write, apply, found, combineCall, List.length_map]
  cases functions.lookup name with
  | none => rfl
  | some target =>
      by_cases same : arguments.length = target.arity
      · cases results : (arguments.map Expression.result).mapM id <;>
          cases texts : Expression.writeAll arguments <;>
            simp [results, texts, Except.mapError, Except.map] at written
        · simp [same, written, Except.mapError, Except.map, bind, Except.bind]
        · simp [same, written, Except.mapError, Except.map, bind, Except.bind, pure, Except.pure]
      · simp [same, Except.mapError]

/-- A row of formulas with commas between them is a layout of the arguments of a call. -/
theorem exists_arguments (first : String) (rest : List String)
    (accepted : ∀ formula ∈ first :: rest, ∃ tokens, tokenize formula = .ok tokens)
    {before : Layout} (proper : before.Proper) (isOpen : before.Open) :
    ∃ (arguments : Arguments) (layout : Layout), layout.Proper ∧ layout.Closed ∧
      layout.source = before.source ++ (",".intercalate (first :: rest)).toList ∧
      layout.lexemes.map Lexeme.terminal? =
        before.lexemes.map Lexeme.terminal? ++ arguments.terminals.map some ∧
      ∀ precedence, compileBatch precedence (first :: rest) =
        (arguments.expressions precedence).map Expression.result := by
  induction rest generalizing first before with
  | nil =>
      obtain ⟨tokens, scanned⟩ := accepted first (by simp)
      obtain ⟨chain, layout, spells, same⟩ := exists_spells_of_tokenize scanned
      refine ⟨.last chain, before.append layout, proper.append isOpen spells.proper,
        isOpen.closed_append spells.closed, ?_, ?_, ?_⟩
      · simp [same]
      · rw [Layout.lexemes_append, List.map_append, Arguments.terminals, spells.derives]
      · intro precedence
        have compiled := spells.compile_eq same precedence
        simpa [compileBatch, Arguments.expressions, Chain.expression] using compiled
  | cons next rest inductionHypothesis =>
      obtain ⟨tokens, scanned⟩ := accepted first (by simp)
      obtain ⟨chain, layout, spells, same⟩ := exists_spells_of_tokenize scanned
      have wider : ((before.append layout).mark .argSeparator ",").Proper :=
        (proper.append isOpen spells.proper).mark rfl
          ((isOpen.closed_append spells.closed).admits (by simp))
      obtain ⟨arguments, whole, properWhole, closed, source, lexemes, compiled⟩ :=
        inductionHypothesis next (fun formula member => accepted formula (by simp [member])) wider
          (by simp [Layout.mark, Layout.Open])
      refine ⟨.more chain arguments, whole, properWhole, closed, ?_, ?_, ?_⟩
      · rw [source]
        simp [same]
      · have comma : Lexeme.terminal? ⟨.argSeparator, ","⟩ = some .comma := rfl
        have derives := spells.derives
        rw [Chain.Derives] at derives
        simp [lexemes, derives, comma, Arguments.terminals]
      · intro precedence
        have compiledFirst := spells.compile_eq same precedence
        have compiledRest := compiled precedence
        simp only [compileBatch, List.map_cons, Arguments.expressions] at compiledRest ⊢
        rw [compiledFirst, compiledRest]
        rfl

/-- A call is compiled from its arguments. -/
theorem compile_call {name : String} {formulas : List String}
    (isIdentifier : IsIdentifier name.toList) (nonempty : formulas ≠ [])
    (accepted : ∀ formula ∈ formulas, ∃ tokens, tokenize formula = .ok tokens)
    (precedence : Precedence) :
    compile precedence (name ++ "(" ++ ",".intercalate formulas ++ ")") =
      combineCall name (compileBatch precedence formulas) := by
  obtain ⟨first, rest, rfl⟩ := List.exists_cons_of_ne_nil nonempty
  have named : ((Layout.start []).mark .functionName name).Proper :=
    Layout.proper_start.mark isIdentifier trivial
  have opened : (((Layout.start []).mark .functionName name).mark .functionArgsStart "(").Proper :=
    named.mark rfl ⟨by simp, by simp, by simp⟩
  obtain ⟨arguments, layout, proper, closed, source, lexemes, compiled⟩ :=
    exists_arguments first rest accepted opened (by simp [Layout.mark, Layout.Open])
  have spells : (Chain.single (.call name arguments)).Spells
      (layout.mark .functionArgsEnd ")") := by
    refine ⟨proper.mark rfl (closed.admits (by simp)), ?_⟩
    rw [Chain.Derives, Layout.lexemes_mark, List.map_append, lexemes]
    simp [Layout.lexemes, Chain.terminals, Value.terminals, Lexeme.terminal?]
  have same : (layout.mark .functionArgsEnd ")").source =
      (name ++ "(" ++ ",".intercalate (first :: rest) ++ ")").toList := by
    rw [Layout.source_mark, source]
    simp [Layout.source]
  rw [spells.compile_eq same precedence, Chain.expression_single, Value.expression,
    result_call isIdentifier, compiled precedence]

/-- Two groups are compiled from their formulas. -/
theorem compile_groups {first second between : String} {kind : TokenKind} {joint : Joint}
    {firstTokens secondTokens : List Token} (firstAccepted : tokenize first = .ok firstTokens)
    (secondAccepted : tokenize second = .ok secondTokens)
    (known : Lexeme.terminal? ⟨kind, between⟩ = some (.joint joint))
    (wellFormed : Lexeme.WellFormed ⟨kind, between⟩) (notName : kind ≠ .functionName)
    {target : Target} (found : operators.lookup joint.operator.symbol = some target)
    (precedence : Precedence) :
    compile precedence ("(" ++ first ++ ")" ++ between ++ "(" ++ second ++ ")") =
      combine target.name (compile precedence first) (compile precedence second) := by
  obtain ⟨left, leftLayout, leftSpells, leftSource⟩ := exists_spells_of_tokenize firstAccepted
  obtain ⟨right, rightLayout, rightSpells, rightSource⟩ := exists_spells_of_tokenize secondAccepted
  have spells := leftSpells.join rightSpells known wellFormed notName
  have same : ((((Layout.start []).bracket leftLayout).mark kind between).bracket
      rightLayout).source = ("(" ++ first ++ ")" ++ between ++ "(" ++ second ++ ")").toList := by
    simp [Layout.source, leftSource, rightSource]
  rw [spells.compile_eq same precedence, Chain.expression_join, result_operator found,
    leftSpells.compile_eq leftSource precedence, rightSpells.compile_eq rightSource precedence]

/-- A formula that the scanner accepts fails only in the last stage. A formula of two groups, and a
call, are compiled from the results of their parts. -/
theorem compile_compositional (precedence : Precedence) :
    (∀ formula tokens error, tokenize formula = .ok tokens →
      compile precedence formula = .error error → ∃ cause, error = .generate cause) ∧
    (∀ (operator : Operator) (first second : String) (firstTokens secondTokens : List Token),
      tokenize first = .ok firstTokens → tokenize second = .ok secondTokens →
      ∃ target, operators.lookup operator.symbol = some target ∧
        compile precedence ("(" ++ first ++ ")" ++ operator.symbol ++ "(" ++ second ++ ")") =
          combine target.name (compile precedence first) (compile precedence second)) ∧
    (∀ (first second : String) (firstTokens secondTokens : List Token),
      tokenize first = .ok firstTokens → tokenize second = .ok secondTokens →
      compile precedence ("(" ++ first ++ ")(" ++ second ++ ")") =
        compile precedence ("(" ++ first ++ ")" ++ "*" ++ "(" ++ second ++ ")")) ∧
    ∀ (name : String) (formulas : List String), IsIdentifier name.toList → formulas ≠ [] →
      (∀ formula ∈ formulas, ∃ tokens, tokenize formula = .ok tokens) →
      compile precedence (name ++ "(" ++ ",".intercalate formulas ++ ")") =
        combineCall name (compileBatch precedence formulas) := by
  refine ⟨?_, ?_, ?_, ?_⟩
  · intro formula tokens error accepted failed
    obtain ⟨offence, -, same⟩ := ((compile_of_tokenize precedence accepted).1 error).mp failed
    exact ⟨offence, same⟩
  · intro operator first second firstTokens secondTokens firstAccepted secondAccepted
    obtain ⟨target, found, -⟩ := lookup_operators operator
    have known : Lexeme.terminal? ⟨.operator, operator.symbol⟩ =
        some (.joint (.sign operator)) := by
      simp [Lexeme.terminal?]
    exact ⟨target, found, compile_groups firstAccepted secondAccepted known ⟨operator, rfl⟩
      (by simp) found precedence⟩
  · intro first second firstTokens secondTokens firstAccepted secondAccepted
    obtain ⟨target, found, -⟩ := lookup_operators .mul
    have adjacent : Lexeme.terminal? ⟨.implicitMultiply, ""⟩ = some (.joint .adjacent) := rfl
    have sign : Lexeme.terminal? ⟨.operator, "*"⟩ = some (.joint (.sign .mul)) := rfl
    have shape : "(" ++ first ++ ")(" ++ second ++ ")" =
        "(" ++ first ++ ")" ++ "" ++ "(" ++ second ++ ")" := by
      rw [show ")(" = ")" ++ "(" from rfl]
      simp only [String.append_empty, String.append_assoc]
    rw [shape, compile_groups firstAccepted secondAccepted adjacent rfl (by simp) found precedence,
      compile_groups firstAccepted secondAccepted sign ⟨.mul, rfl⟩ (by simp) found precedence]
  · intro name formulas isIdentifier nonempty accepted
    exact compile_call isIdentifier nonempty accepted precedence

/-- The second group has an unknown symbol, and the logarithm has a product without a sign. -/
theorem compile_compositional_sample :
    (∃ tokens, tokenize "2 z" = .ok tokens) ∧ (∃ tokens, tokenize "1-w" = .ok tokens) ∧
      compile .conventional ("(" ++ "2 z" ++ ")" ++ "^" ++ "(" ++ "1-w" ++ ")") =
        .error (.generate (.unknownSymbol "w")) ∧
      compile .conventional ("(" ++ "2 z" ++ ")(" ++ "1-w" ++ ")") =
        .error (.generate (.unknownSymbol "w")) ∧
      compile .conventional ("log" ++ "(" ++ ",".intercalate ["z-1", "2 z"] ++ ")") =
        .ok "cmplxLog(cmplxSub(z, 1), cmplxMult(2, z))" := by
  have isProduct : compile .conventional "2 z" = .ok "cmplxMult(2, z)" := by decide +kernel
  have isDifference : compile .conventional "z-1" = .ok "cmplxSub(z, 1)" := by decide +kernel
  have fails : compile .conventional "1-w" = .error (.generate (.unknownSymbol "w")) := by
    decide +kernel
  have product : tokenize "2 z" =
      .ok [⟨.number, "2", ⟨0, 1⟩⟩, ⟨.implicitMultiply, "", ⟨2, 2⟩⟩, ⟨.symbol, "z", ⟨2, 3⟩⟩] := by
    decide +kernel
  have unknown : tokenize "1-w" =
      .ok [⟨.number, "1", ⟨0, 1⟩⟩, ⟨.operator, "-", ⟨1, 2⟩⟩, ⟨.symbol, "w", ⟨2, 3⟩⟩] := by
    decide +kernel
  have difference : tokenize "z-1" =
      .ok [⟨.symbol, "z", ⟨0, 1⟩⟩, ⟨.operator, "-", ⟨1, 2⟩⟩, ⟨.number, "1", ⟨2, 3⟩⟩] := by
    decide +kernel
  obtain ⟨-, groups, adjacent, calls⟩ := compile_compositional .conventional
  obtain ⟨power, -, raised⟩ := groups .pow "2 z" "1-w" _ _ product unknown
  obtain ⟨times, -, multiplied⟩ := groups .mul "2 z" "1-w" _ _ product unknown
  have isIdentifier : IsIdentifier "log".toList := by
    refine ⟨'l', ['o', 'g'], rfl, rfl, ?_⟩
    intro c member
    rcases List.mem_pair.mp member with rfl | rfl <;> exact .inl rfl
  have accepted : ∀ formula ∈ ["z-1", "2 z"], ∃ tokens, tokenize formula = .ok tokens := by
    intro formula member
    rcases List.mem_pair.mp member with rfl | rfl
    · exact ⟨_, difference⟩
    · exact ⟨_, product⟩
  have called := calls "log" ["z-1", "2 z"] isIdentifier (by simp) accepted
  refine ⟨⟨_, product⟩, ⟨_, unknown⟩, ?_, ?_, ?_⟩
  · rw [isProduct, fails] at raised
    exact raised
  · rw [isProduct, fails] at multiplied
    exact (adjacent "2 z" "1-w" _ _ product unknown).trans multiplied
  · rw [compileBatch, List.map_cons, List.map_cons, List.map_nil, isDifference, isProduct] at called
    exact called

end GlslFormula
