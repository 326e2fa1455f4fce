import GlslFormula.Diagnostic.Render
import GlslFormula.Settings
import GlslFormula.Text.Blank

namespace GlslFormula

structure Session where
  precedence : Precedence := .distinct
  renderer : Renderer := {}
deriving DecidableEq

/-- A blank line has nothing to show. -/
inductive Evaluation where
  | output (shader : String)
  | report (text : String)
  | empty
deriving DecidableEq

namespace Session

/-- Help lines and the usual indicator are always on. -/
def rendererOf (settings : DiagnosticsSettings) : Renderer :=
  { useColors := settings.colors, showSource := settings.showSource }

def ofSettings (settings : Settings) : Session :=
  ⟨settings.compiler.precedence, rendererOf settings.diagnostics⟩

/-- The report of an error, with a line break at the end. -/
def report (session : Session) (error : CompileError) (formula : String) : String :=
  session.renderer.render (.ofError error) (some formula)

/-- The report as a reply, without blanks at the end. -/
def reply (session : Session) (error : CompileError) (formula : String) : String :=
  trimTextEnd (session.report error formula)

def evaluate (session : Session) (line : String) : Evaluation :=
  let formula := trimText line
  if formula = "" then .empty
  else match compile session.precedence formula with
    | .ok shader => .output shader
    | .error error => .report (session.reply error formula)

end Session

end GlslFormula
