import GlslFormula.Compile

namespace GlslFormula

inductive Severity where
  | error
  | warning
deriving DecidableEq

def Severity.label : Severity → String
  | .error => "error"
  | .warning => "warning"

/-- The span counts characters of the formula. -/
structure Diagnostic where
  severity : Severity
  code : String
  message : String
  help : Option String
  span : Option Span
deriving DecidableEq

namespace Diagnostic

/-- A known symbol, a known arity or a sign that can be written differently gives a hint. -/
def helpFor : CompileError → Option String
  | .scan error =>
      if error.reason = .danglingSign then
        some "to negate a variable or group, write `-1*` before it"
      else none
  | .generate (.unknownSymbol _) =>
      some ("known symbols: " ++ ", ".intercalate (Shader.symbols.map Prod.fst))
  | .generate (.arityMismatch name expected _) =>
      some ("`" ++ name ++ "` takes exactly " ++ toString expected ++ " argument(s)")
  | _ => none

/-- Only an error that was found at a character or a token has a place. -/
def spanFor : CompileError → Option Span
  | .scan error => some error.span
  | .parse error => error.index?.map .single
  | .generate _ => none

def ofError (error : CompileError) : Diagnostic where
  severity := .error
  code := error.code
  message := error.message
  help := helpFor error
  span := spanFor error

/-- The report has no place at the last machine word. -/
def ofError? (error : CompileError) : Option Diagnostic :=
  match error with
  | .scan { character := some _, index, .. } => (Span.single? index).map fun _ => ofError error
  | .parse error' => match error'.index? with
      | some index => (Span.single? index).map fun _ => ofError error
      | none => some (ofError error)
  | _ => some (ofError error)

end Diagnostic

end GlslFormula
