import GlslFormula.Diagnostic

namespace GlslFormula

/-- Terminal colours of a report. -/
inductive Colour where
  | red
  | yellow
  | cyan
deriving DecidableEq

def Colour.code : Colour → String
  | .red => "31"
  | .yellow => "33"
  | .cyan => "36"

/-- Bold text in a colour, between terminal escape sequences. -/
def Colour.bold (colour : Colour) (text : String) : String :=
  "\x1b[1m\x1b[" ++ colour.code ++ "m" ++ text ++ "\x1b[39m\x1b[0m"

structure Renderer where
  useColors : Bool := true
  showSource : Bool := true
  showHelp : Bool := true
  indicator : Char := '^'
deriving DecidableEq

namespace Renderer

/-- The text is plain when colours are off. -/
def paint (renderer : Renderer) (colour : Colour) (text : String) : String :=
  if renderer.useColors then colour.bold text else text

def severityColour : Severity → Colour
  | .error => .red
  | .warning => .yellow

def header (renderer : Renderer) (diagnostic : Diagnostic) : String :=
  renderer.paint (severityColour diagnostic.severity)
    (diagnostic.severity.label ++ "[" ++ diagnostic.code ++ "]") ++
    ": " ++ diagnostic.message ++ "\n"

/-- An empty span is marked by one indicator. -/
def marker (renderer : Renderer) (span : Span) : String :=
  "".pushn renderer.indicator (max span.width 1)

/-- The marker stands below the first character of the span. -/
def snippet (renderer : Renderer) (span : Span) (source : String) : String :=
  let gutter := "  " ++ renderer.paint .cyan "|" ++ " "
  gutter ++ source ++ "\n" ++
    gutter ++ "".pushn ' ' span.start ++ renderer.paint .red (renderer.marker span) ++ "\n"

def helpLine (renderer : Renderer) (help : String) : String :=
  renderer.paint .cyan "help" ++ ": " ++ help ++ "\n"

/-- The header is always written. The snippet needs a span and a source. -/
def render (renderer : Renderer) (diagnostic : Diagnostic) (source : Option String) : String :=
  let shown := match renderer.showSource, diagnostic.span, source with
    | true, some span, some source => renderer.snippet span source
    | _, _, _ => ""
  let helped := match renderer.showHelp, diagnostic.help with
    | true, some help => renderer.helpLine help
    | _, _ => ""
  renderer.header diagnostic ++ shown ++ helped

end Renderer

end GlslFormula
