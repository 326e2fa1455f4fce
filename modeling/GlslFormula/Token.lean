import GlslFormula.Span

namespace GlslFormula

inductive TokenKind where
  | number
  | symbol
  | operator
  | implicitMultiply
  | parenthesisOpen
  | parenthesisClose
  | functionName
  | functionArgsStart
  | functionArgsEnd
  | argSeparator
deriving DecidableEq

namespace TokenKind

/-- These kinds stand for a binary operator. -/
def isOperator : TokenKind → Bool
  | .operator | .implicitMultiply => true
  | _ => false

/-- This is the name that messages use. -/
def label : TokenKind → String
  | .number => "number"
  | .symbol => "symbol"
  | .operator => "operator"
  | .implicitMultiply => "implicit multiplication"
  | .parenthesisOpen => "opening parenthesis"
  | .parenthesisClose => "closing parenthesis"
  | .functionName => "function name"
  | .functionArgsStart => "argument list start"
  | .functionArgsEnd => "argument list end"
  | .argSeparator => "argument separator"

/-- This is the name that structured output uses. -/
def key : TokenKind → String
  | .number => "number"
  | .symbol => "symbol"
  | .operator => "operator"
  | .implicitMultiply => "implicit_multiply"
  | .parenthesisOpen => "parenthesis_open"
  | .parenthesisClose => "parenthesis_close"
  | .functionName => "function_name"
  | .functionArgsStart => "function_args_start"
  | .functionArgsEnd => "function_args_end"
  | .argSeparator => "arg_separator"

def all : List TokenKind :=
  [.number, .symbol, .operator, .implicitMultiply, .parenthesisOpen, .parenthesisClose,
    .functionName, .functionArgsStart, .functionArgsEnd, .argSeparator]

def ofKey? (key : String) : Option TokenKind :=
  all.find? fun kind => kind.key == key

/-- The description names the kind and quotes a text that is not empty. -/
def describe (kind : TokenKind) (text : String) : String :=
  if text = "" then kind.label else kind.label ++ " \"" ++ text ++ "\""

end TokenKind

/-- An implicit multiplication has no text and an empty span. -/
structure Token where
  kind : TokenKind
  text : String
  span : Span
deriving DecidableEq

namespace Token

def describe (token : Token) : String := token.kind.describe token.text

/-- The description is padded to this many characters in a token listing. -/
def describeWidth : Nat := 24

/-- A listing line has the padded description, a space and the span. -/
def line (token : Token) : String :=
  token.describe.pushn ' ' (describeWidth - token.describe.length) ++ " " ++ token.span.text

end Token

end GlslFormula
