import Mathlib
import GlslFormula.Precedence
import GlslFormula.Token

namespace GlslFormula

@[simp] theorem Operator.ofSymbol?_symbol (operator : Operator) :
    ofSymbol? operator.symbol = some operator := by
  cases operator <;> decide

theorem Operator.ofSymbol?_eq_some_iff {text : String} {operator : Operator} :
    ofSymbol? text = some operator ↔ text = operator.symbol := by
  constructor
  · intro found
    have same := List.find?_some found
    exact (beq_iff_eq.mp same).symm
  · rintro rfl
    exact ofSymbol?_symbol operator

example : Operator.all.map Operator.symbol = ["+", "-", "*", "/", "^"] := rfl

/-- A lexeme is a token without its place. -/
structure Lexeme where
  kind : TokenKind
  text : String
deriving DecidableEq

def Token.lexeme (token : Token) : Lexeme := ⟨token.kind, token.text⟩

namespace Grammar

/-- A joint stands between two values. Two values side by side are multiplied. -/
inductive Joint where
  | sign (operator : Operator)
  | adjacent
deriving DecidableEq

def Joint.operator : Joint → Operator
  | .sign operator => operator
  | .adjacent => .mul

/-- The grammar does not depend on the texts of brackets and commas. -/
inductive Terminal where
  | number (text : String)
  | symbol (text : String)
  | joint (joint : Joint)
  | groupOpen
  | groupClose
  | name (text : String)
  | argumentsOpen
  | argumentsClose
  | comma
deriving DecidableEq

mutual

inductive Value where
  | number (text : String)
  | symbol (text : String)
  | group (inner : Chain)
  | call (name : String) (arguments : Arguments)

inductive Chain where
  | single (value : Value)
  | join (value : Value) (joint : Joint) (rest : Chain)

/-- A call has at least one argument. -/
inductive Arguments where
  | last (argument : Chain)
  | more (argument : Chain) (rest : Arguments)

end

mutual

def Value.terminals : Value → List Terminal
  | .number text => [.number text]
  | .symbol text => [.symbol text]
  | .group inner => .groupOpen :: (inner.terminals ++ [.groupClose])
  | .call name arguments =>
      .name name :: .argumentsOpen :: (arguments.terminals ++ [.argumentsClose])

def Chain.terminals : Chain → List Terminal
  | .single value => value.terminals
  | .join value joint rest => value.terminals ++ .joint joint :: rest.terminals

def Arguments.terminals : Arguments → List Terminal
  | .last argument => argument.terminals
  | .more argument rest => argument.terminals ++ .comma :: rest.terminals

end

end Grammar

/-- An operator whose text is not one of the five signs stands for nothing. -/
def Lexeme.terminal? (lexeme : Lexeme) : Option Grammar.Terminal :=
  match lexeme.kind with
  | .number => some (.number lexeme.text)
  | .symbol => some (.symbol lexeme.text)
  | .operator => (Operator.ofSymbol? lexeme.text).map fun operator => .joint (.sign operator)
  | .implicitMultiply => some (.joint .adjacent)
  | .parenthesisOpen => some .groupOpen
  | .parenthesisClose => some .groupClose
  | .functionName => some (.name lexeme.text)
  | .functionArgsStart => some .argumentsOpen
  | .functionArgsEnd => some .argumentsClose
  | .argSeparator => some .comma

/-- The chain derives the lexemes. -/
def Grammar.Chain.Derives (chain : Grammar.Chain) (lexemes : List Lexeme) : Prop :=
  lexemes.map Lexeme.terminal? = chain.terminals.map some

end GlslFormula
