import GlslFormula.Compile
import GlslFormula.Log
import GlslFormula.Tree.Walk

namespace GlslFormula

inductive CompileEvent where
  | batch (count : Nat)
  | compiling (formula : String)
  | scanning (length : Nat)
  | emitted (token : Token)
  | scanned (count : Nat)
  | scanFailed (error : ScanError)
  | parsing (count : Nat) (precedence : Precedence)
  | fed (token : Token) (phase : ParsePhase) (cursor : NodeId)
  | parseFailed (error : ParseError)
  | parsed (nodes : Nat)
  | generated (bytes : Nat)
  | compiled
deriving DecidableEq

namespace CompileEvent

def message : CompileEvent → String
  | .batch count => "Compiling batch of " ++ toString count ++ " formulas"
  | .compiling formula => "Compiling formula " ++ readableQuote formula
  | .scanning length => "Lexing formula (" ++ toString length ++ " chars)"
  | .emitted token => "token " ++ token.describe ++ " at " ++ token.span.text
  | .scanned count => "Lexed " ++ toString count ++ " tokens"
  | .scanFailed error => "Lexing failed: " ++ error.message
  | .parsing count precedence =>
      "Parsing " ++ toString count ++ " tokens (" ++ precedence.label ++ " precedence)"
  | .fed token phase cursor =>
      token.describe ++ " -> " ++ phase.label ++ ", cursor " ++ NodeId.text cursor
  | .parseFailed error => "Parsing failed: " ++ error.message
  | .parsed nodes => "Parsed tree with " ++ toString nodes ++ " nodes"
  | .generated bytes => "Generated " ++ toString bytes ++ " bytes of GLSL"
  | .compiled => "Compilation successful"

/-- Only events about single tokens are traced. -/
def level : CompileEvent → LogLevel
  | .emitted _ | .fed .. => .trace
  | _ => .debug

def toLogEvent (event : CompileEvent) : LogEvent := ⟨event.level, event.message⟩

end CompileEvent

/-- The tokens that were read before a failure are listed too. -/
def scanEvents (formula : String) : List CompileEvent :=
  let (scanner, error) := Scanner.start.run formula.toList
  .scanning formula.length :: scanner.tokens.map .emitted ++
    [match error with
      | none => .scanned scanner.tokens.length
      | some error => .scanFailed error]

/-- The events up to the first refused token. An end that comes too early has no event. -/
def Builder.feedEvents (builder : Builder) : List Token → List CompileEvent
  | [] =>
      match builder.finish with
      | .ok tree => [.parsed tree.length]
      | .error _ => []
  | token :: rest =>
      match builder.feed token with
      | .ok next => .fed token next.phase next.cursor :: next.feedEvents rest
      | .error error => [.parseFailed error]

def parseEvents (precedence : Precedence) (formula : String) : List CompileEvent :=
  scanEvents formula ++
    match tokenize formula with
    | .ok tokens =>
        .parsing tokens.length precedence :: (Builder.start precedence).feedEvents tokens
    | .error _ => []

def compileEvents (precedence : Precedence) (formula : String) : List CompileEvent :=
  .compiling formula :: parseEvents precedence formula ++
    match compile precedence formula with
    | .ok text => [.generated text.utf8ByteSize, .compiled]
    | .error _ => []

def batchEvents (precedence : Precedence) (formulas : List String) : List CompileEvent :=
  .batch formulas.length :: formulas.flatMap (compileEvents precedence)

end GlslFormula
