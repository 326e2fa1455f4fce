import GlslFormula.Proofs.Arrangement
import GlslFormula.Proofs.Writing

namespace GlslFormula

open Grammar Shader

/-- The error of a failed result. -/
def Shader.error? : Except GenerateError String → Option GenerateError
  | .ok _ => none
  | .error error => some error

/-- A symbol has to stand for a constant. -/
def Shader.symbolOffence? (name : String) : Option GenerateError :=
  if (symbol? name).isSome then none else some (.unknownSymbol name)

/-- An operation has to be known and to have this many operands. -/
def Shader.arityOffence? (name : String) (target? : Option Target) (count : Nat) :
    Option GenerateError :=
  match target? with
  | none => some (.unknownOperation name)
  | some target =>
      if count = target.arity then none
      else some (.arityMismatch name target.arity count)

namespace Expression

mutual

/-- This is the leftmost offence of an expression. Operators are never an offence. -/
def offence? : Expression → Option GenerateError
  | .number _ => none
  | .symbol text => symbolOffence? text
  | .operator _ left right => left.offence?.or right.offence?
  | .call name arguments =>
      (arityOffence? name (operation? name) arguments.length).or (offenceAll? arguments)

def offenceAll? : List Expression → Option GenerateError
  | [] => none
  | expression :: rest => expression.offence?.or (offenceAll? rest)

end

theorem error?_join (first second : Except GenerateError String) :
    error? (join first second) = (error? first).or (error? second) := by
  cases first <;> cases second <;> rfl

theorem error?_apply (name : String) (count : Nat) (arguments : Except GenerateError String) :
    error? (apply name count arguments) =
      (arityOffence? name (operation? name) count).or (error? arguments) := by
  cases known : operation? name with
  | none => simp [apply, arityOffence?, known, error?]
  | some target =>
      by_cases same : count = target.arity
      · cases arguments <;> simp [apply, arityOffence?, known, same, error?, Except.map]
      · simp [apply, arityOffence?, known, same, error?]

theorem arityOffence?_operator (operator : Operator) :
    arityOffence? operator.symbol (operation? operator.symbol) 2 = none := by
  cases operator <;> decide

mutual

/-- Writing fails with the leftmost offence. -/
theorem error?_write (expression : Expression) :
    error? expression.write = expression.offence? := by
  cases expression with
  | number text => rfl
  | symbol text =>
      cases known : symbol? text <;> simp [write, offence?, symbolOffence?, known, error?]
  | operator sign left right =>
      rw [write, offence?, error?_apply, arityOffence?_operator, Option.none_or, error?_join,
        left.error?_write, right.error?_write]
  | call name arguments => rw [write, offence?, error?_apply, error?_writeAll arguments]

theorem error?_writeAll (expressions : List Expression) :
    error? (writeAll expressions) = offenceAll? expressions := by
  match expressions with
  | [] => rfl
  | [expression] =>
      rw [writeAll, offenceAll?, offenceAll?, Option.or_none, expression.error?_write]
  | expression :: next :: rest =>
      rw [writeAll, offenceAll?, error?_join, expression.error?_write,
        error?_writeAll (next :: rest)]

end

theorem offenceAll?_append (first second : List Expression) :
    offenceAll? (first ++ second) = (offenceAll? first).or (offenceAll? second) := by
  induction first with
  | nil => rfl
  | cons expression rest inductionHypothesis =>
      rw [List.cons_append, offenceAll?, offenceAll?, inductionHypothesis, Option.or_assoc]

end Expression

open Expression in
/-- The arrangement of a chain keeps the order of its offences. -/
theorem Link.offence?_arrange (precedence : Precedence) (first : Expression) (links : List Link) :
    (arrange precedence first links).offence? =
      first.offence?.or (offenceAll? (links.map Link.operand)) := by
  induction first, links using pivotInduction precedence with
  | single first =>
      rw [arrange_nil, List.map_nil, offenceAll?, Option.or_none]
  | split first before link after chosen isTop left right =>
      rw [arrange_append first before link after chosen, offence?, left, right, List.map_append,
        List.map_cons, offenceAll?_append, offenceAll?, Option.or_assoc]

namespace Token

/-- These are the commas directly inside the bracket that is open at the start. -/
def commas : (depth : Nat) → List Token → Nat
  | _, [] => 0
  | depth, token :: rest =>
      match token.kind with
      | .parenthesisOpen | .functionArgsStart => commas (depth + 1) rest
      | .parenthesisClose | .functionArgsEnd =>
          match depth with
          | 0 => 0
          | outer + 1 => commas outer rest
      | .argSeparator => commas depth rest + if depth = 0 then 1 else 0
      | .number | .symbol | .operator | .implicitMultiply | .functionName => commas depth rest

/-- A call has one argument more than its list has commas. Its list stands behind its name. -/
def argumentCount (behind : List Token) : Nat := 1 + commas 0 (behind.drop 1)

/-- A symbol offends when it is unknown, and the name of a function when it is unknown or has
the wrong number of arguments behind it. -/
def offence? (token : Token) (behind : List Token) : Option GenerateError :=
  match token.kind with
  | .symbol => symbolOffence? token.text
  | .functionName =>
      arityOffence? token.text (functions.lookup token.text) (argumentCount behind)
  | .number | .operator | .implicitMultiply | .parenthesisOpen | .parenthesisClose
  | .functionArgsStart | .functionArgsEnd | .argSeparator => none

def firstOffence? : List Token → Option GenerateError
  | [] => none
  | token :: behind => (token.offence? behind).or (firstOffence? behind)

/-- A symbol is known, and a function is known and has as many arguments as its target. -/
def Fits (token : Token) (behind : List Token) : Prop :=
  (token.kind = .symbol → ∃ constant, symbols.lookup token.text = some constant) ∧
    (token.kind = .functionName → ∃ target, functions.lookup token.text = some target ∧
      argumentCount behind = target.arity)

/-- This is the error of a symbol or a function that does not fit. -/
inductive Offends (token : Token) (behind : List Token) : GenerateError → Prop where
  | symbol (kind : token.kind = .symbol) (unknown : symbols.lookup token.text = none) :
      Offends token behind (.unknownSymbol token.text)
  | function (kind : token.kind = .functionName) (unknown : functions.lookup token.text = none) :
      Offends token behind (.unknownOperation token.text)
  | arity (target : Target) (kind : token.kind = .functionName)
      (known : functions.lookup token.text = some target)
      (wrong : argumentCount behind ≠ target.arity) :
      Offends token behind (.arityMismatch token.text target.arity (argumentCount behind))

theorem offence?_eq_some_iff (token : Token) (behind : List Token) (error : GenerateError) :
    token.offence? behind = some error ↔ token.Offends behind error := by
  constructor
  · intro offends
    obtain ⟨kind, text, span⟩ := token
    cases kind with
    | symbol =>
        cases known : symbols.lookup text with
        | some constant => simp [offence?, symbolOffence?, symbol?, known] at offends
        | none =>
            simp only [offence?, symbolOffence?, symbol?, known, Option.isSome_none,
              Bool.false_eq_true, if_false, Option.some.injEq] at offends
            exact offends ▸ .symbol rfl known
    | functionName =>
        cases known : functions.lookup text with
        | none =>
            simp only [offence?, arityOffence?, known, Option.some.injEq] at offends
            exact offends ▸ .function rfl known
        | some target =>
            by_cases same : argumentCount behind = target.arity
            · simp [offence?, arityOffence?, known, same] at offends
            · simp only [offence?, arityOffence?, known, if_neg same,
                Option.some.injEq] at offends
              exact offends ▸ .arity target rfl known same
    | _ => simp [offence?] at offends
  · intro offends
    cases offends with
    | symbol kind unknown => simp [offence?, kind, symbolOffence?, symbol?, unknown]
    | function kind unknown => simp [offence?, kind, arityOffence?, unknown]
    | arity target kind known wrong => simp [offence?, kind, arityOffence?, known, wrong]

theorem offence?_eq_none_iff (token : Token) (behind : List Token) :
    token.offence? behind = none ↔ token.Fits behind := by
  obtain ⟨kind, text, span⟩ := token
  cases kind with
  | symbol =>
      cases known : symbols.lookup text <;>
        simp [offence?, Fits, symbolOffence?, symbol?, known]
  | functionName =>
      cases known : functions.lookup text <;>
        simp [offence?, Fits, arityOffence?, known]
  | _ => simp [offence?, Fits]

theorem firstOffence?_eq_none_iff (tokens : List Token) :
    firstOffence? tokens = none ↔
      ∀ before token behind, tokens = before ++ token :: behind → token.Fits behind := by
  induction tokens with
  | nil => simp [firstOffence?]
  | cons token behind inductionHypothesis =>
      rw [firstOffence?, Option.or_eq_none_iff, offence?_eq_none_iff, inductionHypothesis]
      constructor
      · rintro ⟨fits, others⟩ before other later split
        cases before with
        | nil =>
            cases split
            exact fits
        | cons first before =>
            cases split
            exact others before other later rfl
      · intro all
        refine ⟨all [] token behind rfl, ?_⟩
        rintro before other later rfl
        exact all (token :: before) other later rfl

theorem firstOffence?_eq_some_iff (tokens : List Token) (error : GenerateError) :
    firstOffence? tokens = some error ↔
      ∃ before token behind, tokens = before ++ token :: behind ∧
        (∀ earlier other later, before = earlier ++ other :: later →
          other.Fits (later ++ token :: behind)) ∧
        token.Offends behind error := by
  induction tokens with
  | nil => simp [firstOffence?]
  | cons token behind inductionHypothesis =>
      rw [firstOffence?, Option.or_eq_some_iff, inductionHypothesis, offence?_eq_none_iff,
        offence?_eq_some_iff]
      constructor
      · rintro (own | ⟨fits, before, other, later, rfl, others, offends⟩)
        · exact ⟨[], token, behind, rfl, by simp, own⟩
        · refine ⟨token :: before, other, later, rfl, ?_, offends⟩
          rintro (_ | ⟨first, earlier⟩) third rest split
          · cases split
            exact fits
          · cases split
            exact others earlier third rest rfl
      · rintro ⟨before, other, later, split, others, offends⟩
        cases before with
        | nil =>
            cases split
            exact .inl offends
        | cons first before =>
            cases split
            refine .inr ⟨others [] token before rfl, before, other, later, rfl, ?_, offends⟩
            rintro earlier third rest rfl
            exact others (token :: earlier) third rest rfl

/-- The terminal of a token tells its kind. -/
theorem kind_of_terminal {token : Token} {terminal : Terminal}
    (known : token.lexeme.terminal? = some terminal) :
    match terminal with
    | .number _ => token.kind = .number
    | .symbol text => token.kind = .symbol ∧ token.text = text
    | .joint _ => token.kind = .operator ∨ token.kind = .implicitMultiply
    | .groupOpen => token.kind = .parenthesisOpen
    | .groupClose => token.kind = .parenthesisClose
    | .name text => token.kind = .functionName ∧ token.text = text
    | .argumentsOpen => token.kind = .functionArgsStart
    | .argumentsClose => token.kind = .functionArgsEnd
    | .comma => token.kind = .argSeparator := by
  obtain ⟨kind, text, span⟩ := token
  cases kind with
  | operator =>
      cases same : Operator.ofSymbol? text with
      | none => simp [lexeme, Lexeme.terminal?, same] at known
      | some operator =>
          simp only [lexeme, Lexeme.terminal?, same, Option.map_some, Option.some.injEq] at known
          subst known
          exact .inl rfl
  | _ =>
      cases known
      simp [lexeme]

end Token

end GlslFormula
