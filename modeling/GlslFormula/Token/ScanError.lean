import GlslFormula.Span

namespace GlslFormula

inductive ScanReason where
  | unmatchedClosing
  | misplacedPoint
  | commaOutsideArguments
  | incompleteArgument
  | danglingSign
  | expectedValue
  | invalidInNumber
  | invalidInIdentifier
  | invalidAfterValue
  | incompleteExpression
  | unclosedGroup (count : Nat)
deriving DecidableEq

namespace ScanReason

def message : ScanReason → String
  | .unmatchedClosing => "unmatched closing parenthesis"
  | .misplacedPoint => "a decimal point may only appear once, inside a number literal"
  | .commaOutsideArguments => "commas may only appear within a function argument list"
  | .incompleteArgument => "the preceding function argument is incomplete"
  | .danglingSign => "a minus sign must be followed by digits"
  | .expectedValue => "expected a number, variable or function name"
  | .invalidInNumber => "this character cannot appear inside a number literal"
  | .invalidInIdentifier => "this character cannot appear inside a variable or function name"
  | .invalidAfterValue => "this character cannot appear after a complete value"
  | .incompleteExpression =>
      "incomplete expression, expected a number, variable or function name"
  | .unclosedGroup count => toString count ++ " unclosed group(s) at end of input"

/-- The four kinds of a misplaced character share one code. -/
def code : ScanReason → String
  | .unmatchedClosing => "E0001"
  | .misplacedPoint => "E0002"
  | .commaOutsideArguments => "E0003"
  | .incompleteArgument => "E0004"
  | .danglingSign => "E0005"
  | .expectedValue | .invalidInNumber | .invalidInIdentifier | .invalidAfterValue => "E0006"
  | .incompleteExpression => "E0007"
  | .unclosedGroup _ => "E0008"

end ScanReason

/-- The character is absent when the formula ends too early. -/
structure ScanError where
  character : Option Char
  index : Nat
  reason : ScanReason
deriving DecidableEq

namespace ScanError

def subject (error : ScanError) : String :=
  match error.character with
  | some c => "character '" ++ c.toString ++ "'"
  | none => "end of input"

def message (error : ScanError) : String :=
  "unexpected " ++ error.subject ++ " at index " ++ toString error.index ++ ": " ++
    error.reason.message

def code (error : ScanError) : String := error.reason.code

/-- The span covers the refused character, or is empty at the end of the formula. -/
def span (error : ScanError) : Span :=
  match error.character with
  | some _ => .single error.index
  | none => .point error.index

end ScanError

end GlslFormula
