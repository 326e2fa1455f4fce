import GlslFormula.Compile
import GlslFormula.Proofs.Offence
import GlslFormula.Proofs.Reference
import GlslFormula.Proofs.Tokenization

namespace GlslFormula

open Builder Grammar Shader

namespace Grammar

/-- A call has one comma less than arguments. -/
def Arguments.commas : Arguments → Nat
  | .last _ => 0
  | .more _ rest => rest.commas + 1

theorem Arguments.length_expressions (precedence : Precedence) (arguments : Arguments) :
    (arguments.expressions precedence).length = 1 + arguments.commas := by
  cases arguments with
  | last argument => rfl
  | more argument rest =>
      rw [expressions, List.length_cons, rest.length_expressions, commas, Nat.add_assoc]

mutual

/-- The commas inside a value belong to its own brackets. -/
theorem Value.commas_append (value : Value) {tokens : List Token}
    (known : Reads tokens value.terminals) (depth : Nat) (rest : List Token) :
    Token.commas depth (tokens ++ rest) = Token.commas depth rest := by
  cases value with
  | number text =>
      obtain ⟨token, rfl, terminal⟩ := Reads.single known
      simp [Token.commas, Token.kind_of_terminal terminal]
  | symbol text =>
      obtain ⟨token, rfl, terminal⟩ := Reads.single known
      simp [Token.commas, Token.kind_of_terminal terminal]
  | group inner =>
      obtain ⟨opening, others, rfl, first, remaining⟩ := Reads.uncons known
      obtain ⟨inside, closing, rfl, readInside, readClosing⟩ := Reads.split remaining
      obtain ⟨close, rfl, last⟩ := Reads.single readClosing
      have passed := inner.commas_append readInside (depth + 1) (close :: rest)
      simpa [Token.commas, Token.kind_of_terminal first, Token.kind_of_terminal last] using passed
  | call name arguments =>
      obtain ⟨function, others, rfl, first, remaining⟩ := Reads.uncons known
      obtain ⟨opening, tail, rfl, second, readTail⟩ := Reads.uncons remaining
      obtain ⟨inside, closing, rfl, readInside, readClosing⟩ := Reads.split readTail
      obtain ⟨close, rfl, last⟩ := Reads.single readClosing
      have passed := arguments.commas_append readInside (depth + 1) (close :: rest)
      simpa [Token.commas, Token.kind_of_terminal first, Token.kind_of_terminal second,
        Token.kind_of_terminal last] using passed

theorem Chain.commas_append (chain : Chain) {tokens : List Token}
    (known : Reads tokens chain.terminals) (depth : Nat) (rest : List Token) :
    Token.commas depth (tokens ++ rest) = Token.commas depth rest := by
  cases chain with
  | single value => exact value.commas_append known depth rest
  | join value joint tail =>
      obtain ⟨before, others, rfl, readBefore, remaining⟩ := Reads.split known
      obtain ⟨between, after, rfl, terminal, readAfter⟩ := Reads.uncons remaining
      rw [List.append_assoc, value.commas_append readBefore, List.cons_append]
      rcases Token.kind_of_terminal terminal with kind | kind <;>
        simp [Token.commas, kind, tail.commas_append readAfter]

theorem Arguments.commas_append (arguments : Arguments) {tokens : List Token}
    (known : Reads tokens arguments.terminals) (depth : Nat) (rest : List Token) :
    Token.commas depth (tokens ++ rest) =
      Token.commas depth rest + if depth = 0 then arguments.commas else 0 := by
  cases arguments with
  | last argument => simp [argument.commas_append known, Arguments.commas]
  | more argument tail =>
      obtain ⟨before, others, rfl, readBefore, remaining⟩ := Reads.split known
      obtain ⟨comma, after, rfl, terminal, readAfter⟩ := Reads.uncons remaining
      rw [List.append_assoc, argument.commas_append readBefore, List.cons_append]
      simp only [Token.commas, Token.kind_of_terminal terminal, tail.commas_append readAfter,
        Arguments.commas]
      split <;> omega

end

/-- The list behind the name of a function has as many arguments as the call. -/
theorem Arguments.argumentCount (arguments : Arguments) {inside : List Token} {close : Token}
    (opening : Token) (rest : List Token) (known : Reads inside arguments.terminals)
    (closes : close.lexeme.terminal? = some .argumentsClose) :
    Token.argumentCount (opening :: (inside ++ close :: rest)) = 1 + arguments.commas := by
  rw [Token.argumentCount, List.drop_one, List.tail_cons, arguments.commas_append known]
  simp [Token.commas, Token.kind_of_terminal closes]

/-- No name of a function in the tokens is the symbol of an operator. -/
def NamesOnly (tokens : List Token) : Prop :=
  ∀ token ∈ tokens, token.kind = .functionName → operators.lookup token.text = none

theorem NamesOnly.subset {tokens part : List Token} (names : NamesOnly tokens)
    (inside : part ⊆ tokens) : NamesOnly part :=
  fun token member => names token (inside member)

theorem Chain.offence?_single (precedence : Precedence) (value : Value) :
    ((Chain.single value).expression precedence).offence? =
      (value.expression precedence).offence? := by
  rw [Chain.expression, Link.offence?_arrange, Chain.first, Chain.links]
  simp [Expression.offenceAll?]

theorem Chain.offence?_join (precedence : Precedence) (value : Value) (joint : Joint)
    (rest : Chain) :
    ((Chain.join value joint rest).expression precedence).offence? =
      (value.expression precedence).offence?.or (rest.expression precedence).offence? := by
  rw [Chain.expression, Chain.expression, Link.offence?_arrange, Link.offence?_arrange,
    Chain.first, Chain.links, List.map_cons, Expression.offenceAll?]

mutual

/-- The offences of a value stand where its tokens are. -/
theorem Value.firstOffence? (precedence : Precedence) (value : Value) {tokens : List Token}
    (known : Reads tokens value.terminals) (names : NamesOnly tokens) (rest : List Token) :
    Token.firstOffence? (tokens ++ rest) =
      (value.expression precedence).offence?.or (Token.firstOffence? rest) := by
  cases value with
  | number text =>
      obtain ⟨token, rfl, terminal⟩ := Reads.single known
      simp [Token.firstOffence?, Token.offence?, Token.kind_of_terminal terminal,
        Value.expression, Expression.offence?]
  | symbol text =>
      obtain ⟨token, rfl, terminal⟩ := Reads.single known
      obtain ⟨kind, same⟩ := Token.kind_of_terminal terminal
      simp [Token.firstOffence?, Token.offence?, kind, same, Value.expression,
        Expression.offence?]
  | group inner =>
      obtain ⟨opening, others, rfl, first, remaining⟩ := Reads.uncons known
      obtain ⟨inside, closing, rfl, readInside, readClosing⟩ := Reads.split remaining
      obtain ⟨close, rfl, last⟩ := Reads.single readClosing
      have passed := inner.firstOffence? precedence readInside
        (names.subset (by simp)) (close :: rest)
      simpa [Token.firstOffence?, Token.offence?, Token.kind_of_terminal first,
        Token.kind_of_terminal last, Value.expression, Chain.expression] using passed
  | call name arguments =>
      obtain ⟨function, others, rfl, first, remaining⟩ := Reads.uncons known
      obtain ⟨opening, tail, rfl, second, readTail⟩ := Reads.uncons remaining
      obtain ⟨inside, closing, rfl, readInside, readClosing⟩ := Reads.split readTail
      obtain ⟨close, rfl, last⟩ := Reads.single readClosing
      have passed := arguments.firstOffence? precedence readInside
        (names.subset fun token member => by simp [member]) (close :: rest)
      obtain ⟨kind, rfl⟩ := Token.kind_of_terminal first
      have count := arguments.argumentCount opening rest readInside last
      have target : operation? function.text = functions.lookup function.text := by
        rw [operation?, List.lookup_append, names function (by simp) kind, Option.none_or]
      have own : function.offence? (opening :: (inside ++ close :: rest)) =
          arityOffence? function.text (operation? function.text)
            (arguments.expressions precedence).length := by
        rw [Token.offence?, kind, count, target, arguments.length_expressions]
      have skipOpen : Token.firstOffence? (opening :: (inside ++ close :: rest)) =
          Token.firstOffence? (inside ++ close :: rest) := by
        simp [Token.firstOffence?, Token.offence?, Token.kind_of_terminal second]
      have skipClose : Token.firstOffence? (close :: rest) = Token.firstOffence? rest := by
        simp [Token.firstOffence?, Token.offence?, Token.kind_of_terminal last]
      have shape : function :: opening :: (inside ++ [close]) ++ rest =
          function :: opening :: (inside ++ close :: rest) := by simp
      rw [shape, Token.firstOffence?, own, skipOpen, passed, skipClose, Value.expression,
        Expression.offence?, Option.or_assoc]

theorem Chain.firstOffence? (precedence : Precedence) (chain : Chain) {tokens : List Token}
    (known : Reads tokens chain.terminals) (names : NamesOnly tokens) (rest : List Token) :
    Token.firstOffence? (tokens ++ rest) =
      (chain.expression precedence).offence?.or (Token.firstOffence? rest) := by
  cases chain with
  | single value =>
      rw [Chain.offence?_single]
      exact value.firstOffence? precedence known names rest
  | join value joint tail =>
      obtain ⟨before, others, rfl, readBefore, remaining⟩ := Reads.split known
      obtain ⟨between, after, rfl, terminal, readAfter⟩ := Reads.uncons remaining
      have second := tail.firstOffence? precedence readAfter (names.subset (by simp)) rest
      have skipped : Token.firstOffence? (between :: (after ++ rest)) =
          Token.firstOffence? (after ++ rest) := by
        rcases Token.kind_of_terminal terminal with kind | kind <;>
          simp [Token.firstOffence?, Token.offence?, kind]
      rw [List.append_assoc, value.firstOffence? precedence readBefore (names.subset (by simp)),
        List.cons_append, skipped, second, Chain.offence?_join, Option.or_assoc]

theorem Arguments.firstOffence? (precedence : Precedence) (arguments : Arguments)
    {tokens : List Token} (known : Reads tokens arguments.terminals) (names : NamesOnly tokens)
    (rest : List Token) :
    Token.firstOffence? (tokens ++ rest) =
      (Expression.offenceAll? (arguments.expressions precedence)).or
        (Token.firstOffence? rest) := by
  cases arguments with
  | last argument =>
      have passed := argument.firstOffence? precedence known names rest
      rwa [Arguments.expressions, Expression.offenceAll?, Expression.offenceAll?, Option.or_none]
  | more argument tail =>
      obtain ⟨before, others, rfl, readBefore, remaining⟩ := Reads.split known
      obtain ⟨comma, after, rfl, terminal, readAfter⟩ := Reads.uncons remaining
      have second := tail.firstOffence? precedence readAfter (names.subset (by simp)) rest
      have skipped : Token.firstOffence? (comma :: (after ++ rest)) =
          Token.firstOffence? (after ++ rest) := by
        simp [Token.firstOffence?, Token.offence?, Token.kind_of_terminal terminal]
      rw [List.append_assoc, argument.firstOffence? precedence readBefore
        (names.subset (by simp)), List.cons_append, skipped, second, Arguments.expressions,
        Expression.offenceAll?, Option.or_assoc]
      rfl

end

end Grammar

/-- An identifier starts with a letter, so it is no operator. -/
theorem lookup_operators_of_isIdentifier {name : String}
    (isIdentifier : IsIdentifier name.toList) : operators.lookup name = none := by
  obtain ⟨first, rest, spelled, isAlpha, -⟩ := isIdentifier
  rw [List.lookup_eq_none_iff]
  intro entry listed
  have symbols : entry.1 ∈ Operator.all.map Operator.symbol := by
    revert entry
    decide
  obtain ⟨operator, -, isSymbol⟩ := List.mem_map.mp symbols
  obtain ⟨c, single, isSign⟩ := operator.exists_sign
  rw [bne_iff_ne]
  intro same
  have isFirst : c = first := by
    have characters : name.toList = [c] := by rw [same, ← isSymbol, single]; simp
    exact (List.cons.inj (characters.symm.trans spelled)).1
  rw [isFirst, (CharClass.ofChar_eq_letter_iff first).mpr isAlpha] at isSign
  simp [CharClass.isOperator] at isSign

/-- No name of an accepted formula is an operator. -/
theorem namesOnly_of_tokenize {formula : String} {tokens : List Token}
    (accepted : tokenize formula = .ok tokens) : NamesOnly tokens := by
  intro token member named
  have wellFormed := wellFormed_of_tokenize accepted token member
  rw [Lexeme.WellFormed, Token.lexeme, named] at wellFormed
  exact lookup_operators_of_isIdentifier wellFormed

/-- The generator writes the expression of a derived token list. -/
theorem Grammar.Chain.generate_ofTokens (chain : Chain) {tokens : List Token}
    (precedence : Precedence) (derived : chain.Derives (tokens.map Token.lexeme)) :
    ∃ tree, Tree.ofTokens precedence tokens = .ok tree ∧
      generate tree = (chain.expression precedence).write := by
  obtain ⟨tree, built, filled⟩ := chain.ofTokens precedence derived
  have large : (chain.expression precedence).size ≤ tree.size := by
    rw [filled.size]
    exact Nat.le_add_left _ _
  exact ⟨tree, built,
    generate_eq_write ⟨_, filled.around, rfl, rfl, rfl⟩ filled.inside.shows large⟩

/-- The generator fails with the leftmost offence of an accepted formula. -/
theorem error?_generate {formula : String} {tokens : List Token} (precedence : Precedence)
    (accepted : tokenize formula = .ok tokens) :
    ∃ tree, Tree.ofTokens precedence tokens = .ok tree ∧
      error? (generate tree) = Token.firstOffence? tokens := by
  obtain ⟨layout, -, complete, -, rfl⟩ := (tokenize_ok_iff_layout formula tokens).mp accepted
  rw [← List.reverse_reverse layout.emitted, Control.after?_eq_done_iff] at complete
  obtain ⟨chain, derived⟩ := complete
  obtain ⟨tree, built, written⟩ := chain.generate_ofTokens precedence derived
  refine ⟨tree, built, ?_⟩
  rw [written, Expression.error?_write]
  rw [Chain.Derives, List.map_map] at derived
  have offences := chain.firstOffence? precedence derived (namesOnly_of_tokenize accepted) []
  simpa [Token.firstOffence?] using offences.symm

theorem parse_of_tokenize {precedence : Precedence} {formula : String} {tokens : List Token}
    {tree : Tree} (accepted : tokenize formula = .ok tokens)
    (built : Tree.ofTokens precedence tokens = .ok tree) : parse precedence formula = .ok tree := by
  rw [parse, accepted]
  simp [built, Except.mapError]

theorem compile_of_tokenize {formula : String} {tokens : List Token} (precedence : Precedence)
    (accepted : tokenize formula = .ok tokens) :
    (∀ error, compile precedence formula = .error error ↔
        ∃ offence, Token.firstOffence? tokens = some offence ∧ error = .generate offence) ∧
      ((∃ text, compile precedence formula = .ok text) ↔ Token.firstOffence? tokens = none) := by
  obtain ⟨tree, built, offences⟩ := error?_generate precedence accepted
  rw [compile, parse_of_tokenize accepted built, ← offences]
  cases result : generate tree <;> simp [result, Except.mapError, error?, eq_comm]

/-- A formula that the scanner refuses fails with its error. Any other formula compiles exactly
when each name fits, or fails with the leftmost offence. So both tables agree on the errors. -/
theorem compile_reports_leftmost (formula : String) :
    (∀ error, tokenize formula = .error error → ∀ precedence,
      compile precedence formula = .error (.scan error)) ∧
    (∀ tokens, tokenize formula = .ok tokens → ∀ precedence,
      ((∃ text, compile precedence formula = .ok text) ↔
        ∀ before token behind, tokens = before ++ token :: behind → token.Fits behind) ∧
      ∀ error, compile precedence formula = .error error ↔
        ∃ before token behind offence, tokens = before ++ token :: behind ∧
          (∀ earlier other later, before = earlier ++ other :: later →
            other.Fits (later ++ token :: behind)) ∧
          token.Offends behind offence ∧ error = .generate offence) ∧
    ((∃ text, compile .distinct formula = .ok text) ↔
      ∃ text, compile .conventional formula = .ok text) ∧
    ∀ error, compile .distinct formula = .error error ↔
      compile .conventional formula = .error error := by
  refine ⟨?_, ?_, ?_⟩
  · intro error refused precedence
    rw [compile, parse, refused]
  · intro tokens accepted precedence
    obtain ⟨fails, succeeds⟩ := compile_of_tokenize precedence accepted
    refine ⟨succeeds.trans (Token.firstOffence?_eq_none_iff tokens), ?_⟩
    intro error
    rw [fails]
    simp only [Token.firstOffence?_eq_some_iff]
    constructor
    · rintro ⟨offence, ⟨before, token, behind, split, others, offends⟩, same⟩
      exact ⟨before, token, behind, offence, split, others, offends, same⟩
    · rintro ⟨before, token, behind, offence, split, others, offends, same⟩
      exact ⟨offence, ⟨before, token, behind, split, others, offends⟩, same⟩
  · cases scanned : tokenize formula with
    | error error => simp [compile, parse, scanned]
    | ok tokens =>
        obtain ⟨failsFirst, succeedsFirst⟩ := compile_of_tokenize .distinct scanned
        obtain ⟨failsSecond, succeedsSecond⟩ := compile_of_tokenize .conventional scanned
        exact ⟨succeedsFirst.trans succeedsSecond.symm,
          fun error => (failsFirst error).trans (failsSecond error).symm⟩

/-- The sine has two arguments, and the unknown names stand behind it. -/
def offendingFormula : String := "2 sin(z, foo(1) w)"

def offendingTokens : List Token :=
  [⟨.number, "2", ⟨0, 1⟩⟩, ⟨.implicitMultiply, "", ⟨2, 2⟩⟩, ⟨.functionName, "sin", ⟨2, 5⟩⟩,
    ⟨.functionArgsStart, "(", ⟨5, 6⟩⟩, ⟨.symbol, "z", ⟨6, 7⟩⟩, ⟨.argSeparator, ",", ⟨7, 8⟩⟩,
    ⟨.functionName, "foo", ⟨9, 12⟩⟩, ⟨.functionArgsStart, "(", ⟨12, 13⟩⟩,
    ⟨.number, "1", ⟨13, 14⟩⟩, ⟨.functionArgsEnd, ")", ⟨14, 15⟩⟩,
    ⟨.implicitMultiply, "", ⟨16, 16⟩⟩, ⟨.symbol, "w", ⟨16, 17⟩⟩,
    ⟨.functionArgsEnd, ")", ⟨17, 18⟩⟩]

theorem compile_reports_leftmost_sample :
    tokenize offendingFormula = .ok offendingTokens ∧
      compile .distinct offendingFormula = .error (.generate (.arityMismatch "sin" 1 2)) ∧
      compile .conventional offendingFormula =
        .error (.generate (.arityMismatch "sin" 1 2)) := by
  have accepted : tokenize offendingFormula = .ok offendingTokens := by decide +kernel
  obtain ⟨-, fails, -, agree⟩ := compile_reports_leftmost offendingFormula
  have reported : compile .distinct offendingFormula =
      .error (.generate (.arityMismatch "sin" 1 2)) := by
    apply ((fails offendingTokens accepted .distinct).2 _).mpr
    refine ⟨offendingTokens.take 2, ⟨.functionName, "sin", ⟨2, 5⟩⟩, offendingTokens.drop 3, _,
      rfl, ?_, .arity ⟨"cmplxSin", 1⟩ rfl (by decide +kernel) (by decide +kernel), rfl⟩
    intro earlier other later split
    have member : other ∈ offendingTokens.take 2 := by
      rw [split]
      simp
    simp only [offendingTokens, List.take_succ_cons, List.take_zero, List.mem_cons,
      List.not_mem_nil, or_false] at member
    rcases member with rfl | rfl <;> exact ⟨by simp, by simp⟩
  exact ⟨accepted, reported, (agree _).mp reported⟩

end GlslFormula
