import GlslFormula.Host
import GlslFormula.Host.Path
import GlslFormula.Session.Command
import GlslFormula.Session.History
import GlslFormula.Session.LineEdit
import GlslFormula.Version

namespace GlslFormula

/-- A conversation is broken when a line could not be edited. -/
structure Conversation where
  session : Session
  history : History
  threshold : LogLevel
  isBroken : Bool := false
deriving DecidableEq

namespace Conversation

def banner : String :=
  versionLine ++ " - Type :help for assistance\nPress Ctrl+D or :quit to exit\n\n"

def isCommand (line : String) : Bool := (trimStart line.toList).head? == some ':'

def eventText (conversation : Conversation) (events : List CompileEvent) : String :=
  logText conversation.threshold (events.map CompileEvent.toLogEvent)

def answerCommand (conversation : Conversation) (command : Command) : Turn Conversation :=
  let reported := conversation.eventText (command.events conversation.session.precedence)
  match conversation.session.perform command with
  | .exit => { state := conversation, reported, isLast := true }
  | .proceed => { state := conversation, reported }
  | .output text => { state := conversation, reported, printed := text ++ "\n" }

def answerFormula (conversation : Conversation) (line : String) : Turn Conversation :=
  let events := compileEvents conversation.session.precedence (trimText line)
  match conversation.session.evaluate line with
  | .empty => { state := conversation }
  | .output text | .report text =>
      { state := conversation, reported := conversation.eventText events, printed := text ++ "\n" }

/-- Each line goes into the history before it is answered. -/
def answerLine (conversation : Conversation) (line : String) : Turn Conversation :=
  let next := { conversation with history := conversation.history.add line }
  if isCommand line then next.answerCommand (.ofLine line) else next.answerFormula line

/-- The backspaces of a line are applied first. -/
def answer (conversation : Conversation) (typed : String) : Turn Conversation :=
  match editLine typed with
  | some line => conversation.answerLine line
  | none => { state := { conversation with isBroken := true }, isLast := true }

variable {m : Type → Type} [Monad m] [Host m]

def warn (threshold : LogLevel) (messages : List String) : m Unit :=
  Host.report (logText threshold (messages.map fun message => ⟨.warn, message⟩))

/-- A history file that cannot be read is left alone. -/
def openHistory (threshold : LogLevel) (settings : ReplSettings) : m History := do
  match settings.historyFile with
  | none => return .empty settings.historySize
  | some path =>
      if ← Host.pathExists path then
        match ← Host.readText path with
        | .ok text =>
            warn threshold ((History.badLines text).map fun line => "bad escaped line: " ++ line)
            return .read settings.historySize text
        | .error error =>
            warn threshold ["Could not load history from " ++ path ++ ": " ++ error.message]
            return .empty settings.historySize
      else return .empty settings.historySize

/-- A history without new entries is not written. -/
def writeHistory (threshold : LogLevel) (path : String) (history : History) : m Unit := do
  if history.isFresh then
    match ← Host.writeText path history.text with
    | .ok () => return ()
    | .error error =>
        warn threshold ["Could not save history to " ++ path ++ ": " ++ error.message]

/-- The directory of the history file is created in any case. -/
def closeHistory (threshold : LogLevel) (settings : ReplSettings) (history : History) :
    m Unit := do
  match settings.historyFile with
  | none => return ()
  | some path =>
      match Path.parent? path with
      | none => writeHistory threshold path history
      | some parent =>
          match ← Host.makeDirectories parent with
          | .ok () => writeHistory threshold path history
          | .error error =>
              warn threshold ["Could not create " ++ parent ++ ": " ++ error.message]

/-- Lines are read without help from the terminal. -/
def notice (threshold : LogLevel) : String :=
  logText threshold [⟨.debug, "unsupported terminal"⟩]

/-- The history of a broken conversation is lost. The result is whether the conversation came to
its end. -/
def run (threshold : LogLevel) (session : Session) (settings : ReplSettings) : m Bool := do
  let history ← openHistory threshold settings
  Host.print banner
  let final ← Host.converse (notice threshold) settings.prompt answer
    ({ session, history, threshold } : Conversation)
  if final.isBroken then return false
  closeHistory threshold settings final.history
  return true

end Conversation

end GlslFormula
