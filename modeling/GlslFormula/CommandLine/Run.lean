import GlslFormula.CommandLine.Arguments
import GlslFormula.Session.Conversation
import GlslFormula.Settings.Files
import GlslFormula.Token.Structured

namespace GlslFormula.CommandLine

/-- The causes are listed with the nearest one first. -/
structure Failure where
  message : String
  causes : List String := []
  status : Nat := 1
deriving DecidableEq

namespace Failure

/-- Each further line is indented as deep as the first one. -/
def indented (lead : String) (text : String) : String :=
  lead ++ ("\n" ++ "".pushn ' ' lead.length).intercalate (text.splitOn "\n")

/-- Causes are numbered when there are several. -/
def causeLines (causes : List String) : List String :=
  match causes with
  | [cause] => [indented "    " cause]
  | _ => causes.mapIdx fun index cause => indented ("    " ++ toString index ++ ": ") cause

def text (failure : Failure) : String :=
  "Error: " ++ failure.message ++
    (if failure.causes.isEmpty then ""
      else "\n\nCaused by:\n" ++ "\n".intercalate (causeLines failure.causes)) ++ "\n"

def brokenConversation : Failure :=
  { message := "a backspace would split a character", status := 101 }

end Failure

def usageText : String :=
  "Usage: " ++ toolName ++ " [OPTIONS] <COMMAND>\n\nCommands: " ++
    ", ".intercalate (Subcommand.all.map Subcommand.name) ++
    "\n\nOptions: -v, --verbose; -c, --config <FILE>; -h, --help; -V, --version\n"

variable {m : Type → Type} [Monad m] [Host m]

/-- A result is printed, and a failed compilation is reported. -/
def deliver {Result : Type} (session : Session) (formula : String)
    (result : Except CompileError Result) (text : Result → String) : m (Except Failure Unit) := do
  match result with
  | .ok value =>
      Host.print (text value)
      return .ok ()
  | .error error =>
      Host.report (session.report error formula)
      return .error { message := "compilation failed (" ++ error.code ++ ")" }

def log (threshold : LogLevel) (events : List CompileEvent) : m Unit :=
  Host.report (logText threshold (events.map CompileEvent.toLogEvent))

def tokensText (json : Bool) (tokens : List Token) : String :=
  if json then (Json.array (tokens.map Token.toJson)).text ++ "\n"
  else String.join (tokens.map fun token => token.line ++ "\n")

def treeText (json : Bool) (tree : Tree) : String :=
  (if json then tree.toJson.text else tree.outline) ++ "\n"

/-- Blank lines are counted but not compiled. The result is the number of failures. -/
def batchLines (session : Session) (file : String) : Nat → List String → m Nat
  | _, [] => return 0
  | number, formula :: rest => do
      if formula = "" then batchLines session file (number + 1) rest
      else match compile session.precedence formula with
        | .ok shader =>
            Host.print (shader ++ "\n")
            batchLines session file (number + 1) rest
        | .error error =>
            Host.report (file ++ ":" ++ toString number ++ ":\n")
            Host.report (session.report error formula)
            return (← batchLines session file (number + 1) rest) + 1

def runBatch (threshold : LogLevel) (session : Session) (file : String) :
    m (Except Failure Unit) := do
  match ← Host.readText file with
  | .error error =>
      return .error { message := "Failed to read: " ++ file, causes := [error.message] }
  | .ok text =>
      let formulas := (textLines text).map trimText
      log threshold (batchEvents session.precedence formulas)
      let failures ← batchLines session file 1 formulas
      if failures = 0 then return .ok ()
      else return .error { message := toString failures ++ " formula(s) failed to compile" }

def runExplain (code : String) : m (Except Failure Unit) := do
  match Catalogue.find? code with
  | some entry =>
      Host.print (entry.text ++ "\n")
      return .ok ()
  | none => return .error { message := Session.explainText code }

def perform (threshold : LogLevel) (settings : Settings) (action : Action) :
    m (Except Failure Unit) := do
  let session := Session.ofSettings settings
  match action with
  | .compile formula =>
      log threshold (compileEvents session.precedence formula)
      deliver session formula (compile session.precedence formula) (· ++ "\n")
  | .tokens formula json =>
      log threshold (scanEvents formula)
      deliver session formula ((tokenize formula).mapError .scan) (tokensText json)
  | .tree formula json =>
      log threshold (parseEvents session.precedence formula)
      deliver session formula (parse session.precedence formula) (treeText json)
  | .batch file => runBatch threshold session file
  | .repl =>
      if ← Conversation.run threshold session settings.repl then return .ok ()
      else return .error .brokenConversation
  | .explain code => runExplain code
  | .version =>
      Host.print (versionLine ++ "\n")
      return .ok ()

/-- The settings are loaded before any action. -/
def runInvocation (invocation : Invocation) : m (Except Failure Unit) := do
  let threshold := LogLevel.ofVerbosity invocation.verbosity
  match ← Settings.load threshold invocation.settingsFile with
  | .error error =>
      return .error { message := "Failed to load configuration", causes := error.causes }
  | .ok settings => perform threshold settings invocation.action

/-- The result is the exit status. -/
def run (arguments : List String) : m Nat := do
  match readArguments arguments with
  | .error .help =>
      Host.print usageText
      return 0
  | .error .version =>
      Host.print (versionLine ++ "\n")
      return 0
  | .error .usage =>
      Host.report usageText
      return 2
  | .ok invocation =>
      match ← runInvocation invocation with
      | .ok () => return 0
      | .error failure =>
          Host.report failure.text
          return failure.status

end GlslFormula.CommandLine
