import GlslFormula.Precedence
import GlslFormula.Toml.Document
import GlslFormula.Word

namespace GlslFormula

structure CompilerSettings where
  precedence : Precedence := .distinct
deriving DecidableEq

structure DiagnosticsSettings where
  colors : Bool := true
  showSource : Bool := true
deriving DecidableEq

/-- No history is kept when the history file is not set. -/
structure ReplSettings where
  historySize : Nat := 1000
  historyFile : Option String := none
  prompt : String := "glsl> "
deriving DecidableEq

structure Settings where
  compiler : CompilerSettings := {}
  diagnostics : DiagnosticsSettings := {}
  repl : ReplSettings := {}
deriving DecidableEq

namespace Settings

open Toml (Value Entries)

/-- A section is a table, or an array that holds its fields in order. A date has none of the
fields. -/
def fieldOf? (name : String) (position : Nat) : Value → Option (Option Value)
  | .table _ entries => some (entries.lookup name)
  | .array items => some items[position]?
  | .tables elements => some ((elements.reverse[position]?).map (.table .explicit))
  | .datetime => some none
  | _ => none

/-- A missing section has no fields. -/
def field? (group : Option Value) (name : String) (position : Nat) : Option (Option Value) :=
  match group with
  | none => some none
  | some value => fieldOf? name position value

/-- A missing value is replaced by the default. A value of another kind is refused. -/
def readOr {Result : Type} (default : Result) (read : Value → Option Result) :
    Option Value → Option Result
  | none => some default
  | some value => read value

def readString : Value → Option String
  | .string text => some text
  | _ => none

def readBool : Value → Option Bool
  | .boolean value => some value
  | _ => none

/-- A size is not negative. -/
def readSize : Value → Option Nat
  | .integer value => if 0 ≤ value then some value.toNat else none
  | _ => none

def isEmptyCollection : Value → Bool
  | .array items => items.isEmpty
  | .table _ entries => entries.isEmpty
  | .tables elements => elements.isEmpty
  | _ => false

/-- A precedence is given by name, or as a table with the name as its only key and nothing
below it. -/
def readPrecedence : Value → Option Precedence
  | .string name => Precedence.ofKey? name
  | .table _ [(name, content)] =>
      if isEmptyCollection content then Precedence.ofKey? name else none
  | _ => none

def readCompiler (group : Option Value) : Option CompilerSettings := do
  let precedence ← readOr .distinct readPrecedence (← field? group "precedence" 0)
  return { precedence }

def readDiagnostics (group : Option Value) : Option DiagnosticsSettings := do
  let colors ← readOr true readBool (← field? group "colors" 0)
  let showSource ← readOr true readBool (← field? group "show_source" 1)
  return { colors, showSource }

def readRepl (group : Option Value) : Option ReplSettings := do
  let defaults : ReplSettings := {}
  let historySize ← readOr defaults.historySize readSize (← field? group "history_size" 0)
  let historyFile ← readOr none (fun value => (readString value).map some)
    (← field? group "history_file" 1)
  let prompt ← readOr defaults.prompt readString (← field? group "prompt" 2)
  return { historySize, historyFile, prompt }

/-- Unknown keys and sections are ignored. -/
def ofEntries (entries : Entries) : Option Settings := do
  let compiler ← readCompiler (entries.lookup "compiler")
  let diagnostics ← readDiagnostics (entries.lookup "diagnostics")
  let repl ← readRepl (entries.lookup "repl")
  return { compiler, diagnostics, repl }

def parse (text : String) : Option Settings := do ofEntries (← Toml.readDocument text)

def boolText (value : Bool) : String := if value then "true" else "false"

def quoted (text : String) : String := String.ofList (Toml.writeQuoted text.toList)

def historyFileLine (historyFile : Option String) : String :=
  match historyFile with
  | some path => "history_file = " ++ quoted path ++ "\n"
  | none => ""

/-- A size that is no signed word of 64 bits cannot be written. -/
def write (settings : Settings) : Option String :=
  if settings.repl.historySize < signedCount then
    some ("[compiler]\nprecedence = " ++ quoted settings.compiler.precedence.key ++
      "\n\n[diagnostics]\ncolors = " ++ boolText settings.diagnostics.colors ++
      "\nshow_source = " ++ boolText settings.diagnostics.showSource ++
      "\n\n[repl]\nhistory_size = " ++ toString settings.repl.historySize ++ "\n" ++
      historyFileLine settings.repl.historyFile ++
      "prompt = " ++ quoted settings.repl.prompt ++ "\n")
  else none

end Settings

end GlslFormula
