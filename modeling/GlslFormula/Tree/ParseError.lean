import GlslFormula.Token

namespace GlslFormula

inductive ParsePhase where
  | expectValue
  | afterValue
  | expectArguments
deriving DecidableEq

/-- This is how messages describe the phase. -/
def ParsePhase.label : ParsePhase → String
  | .expectValue => "expecting a value"
  | .afterValue => "after a complete value"
  | .expectArguments => "expecting an argument list"

inductive ParseError where
  | unexpectedToken (kind : TokenKind) (text : String) (index : Nat) (phase : ParsePhase)
  | unknownOperator (text : String) (index : Nat)
  | unexpectedEnd (phase : ParsePhase)
  | unclosedScope (count : Nat)
deriving DecidableEq

namespace ParseError

def message : ParseError → String
  | .unexpectedToken kind text index phase =>
      "unexpected " ++ kind.describe text ++ " at index " ++ toString index ++ " while " ++
        phase.label
  | .unknownOperator text index =>
      "unknown operator \"" ++ text ++ "\" at index " ++ toString index
  | .unexpectedEnd phase => "token stream ended while " ++ phase.label
  | .unclosedScope count =>
      "token stream ended with " ++ toString count ++ " unclosed group(s)"

def code : ParseError → String
  | .unexpectedToken .. => "E1001"
  | .unknownOperator .. => "E1002"
  | .unexpectedEnd _ => "E1003"
  | .unclosedScope _ => "E1004"

/-- Only an error about a token has a place in the formula. -/
def index? : ParseError → Option Nat
  | .unexpectedToken _ _ index _ => some index
  | .unknownOperator _ index => some index
  | .unexpectedEnd _ => none
  | .unclosedScope _ => none

/-- The token cannot follow what came before it. -/
def unexpected (token : Token) (phase : ParsePhase) : ParseError :=
  .unexpectedToken token.kind token.text token.span.start phase

end ParseError

end GlslFormula
