import GlslFormula.Text.Escape

namespace GlslFormula

inductive LogLevel where
  | trace
  | debug
  | info
  | warn
  | error
deriving DecidableEq

namespace LogLevel

/-- The levels, the least severe first. -/
def all : List LogLevel := [.trace, .debug, .info, .warn, .error]

def label : LogLevel → String
  | .trace => "TRACE"
  | .debug => "DEBUG"
  | .info => "INFO"
  | .warn => "WARN"
  | .error => "ERROR"

def severity : LogLevel → Nat
  | .trace => 0
  | .debug => 1
  | .info => 2
  | .warn => 3
  | .error => 4

/-- Events at or above the threshold are shown. -/
def shows (threshold level : LogLevel) : Bool := decide (threshold.severity ≤ level.severity)

/-- The count is how often the user asked for more output. -/
def ofVerbosity : Nat → LogLevel
  | 0 => .warn
  | 1 => .debug
  | _ => .trace

end LogLevel

structure LogEvent where
  level : LogLevel
  message : String
deriving DecidableEq

namespace LogEvent

/-- Labels are aligned on the right in this many columns. -/
def labelWidth : Nat := 5

def line (event : LogEvent) : String :=
  "".pushn ' ' (labelWidth - event.level.label.length) ++ event.level.label ++ " " ++
    terminalSafe event.message ++ "\n"

end LogEvent

/-- The lines of the events that the threshold shows, in order. -/
def logText (threshold : LogLevel) (events : List LogEvent) : String :=
  String.join ((events.filter fun event => threshold.shows event.level).map LogEvent.line)

end GlslFormula
