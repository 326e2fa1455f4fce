import GlslFormula.Host
import GlslFormula.Host.Path
import GlslFormula.Log
import GlslFormula.Settings
import GlslFormula.Version

namespace GlslFormula

inductive SettingsError where
  | file (path : String) (error : FileError)
  | parse
  | serialize
  | noDirectory
deriving DecidableEq

namespace SettingsError

def message : SettingsError → String
  | .file path error => "IO error on " ++ path ++ ": " ++ error.message
  | .parse => "Config parse error"
  | .serialize => "Config serialize error"
  | .noDirectory => "Cannot determine config directory"

/-- The error and what caused it, outermost first. -/
def causes : SettingsError → List String
  | .file path error => [message (.file path error), error.message]
  | error => [error.message]

end SettingsError

namespace Settings

def fileName : String := "config.toml"

/-- The variables that can name the directory of all settings, with the way from there, in the
order of preference. -/
def baseVariables : List (String × List String) :=
  [("XDG_CONFIG_HOME", []), ("HOME", [".config"]), ("APPDATA", [])]

/-- The first variable that is set decides, even if it is empty. -/
def directory? (lookup : String → Option String) : Option String :=
  baseVariables.findSome? fun entry =>
    (lookup entry.1).map fun base => (entry.2 ++ [toolName]).foldl Path.join base

def path? (lookup : String → Option String) : Option String :=
  (directory? lookup).map (Path.join · fileName)

variable {m : Type → Type} [Monad m] [Host m]

/-- The values of the variables that `directory?` looks at. -/
def askVariables : m (String → Option String) := do
  let found ← baseVariables.mapM fun entry => do
    return (entry.1, ← Host.getVariable entry.1)
  return fun name => (found.lookup name).join

def loadFrom (threshold : LogLevel) (path : String) : m (Except SettingsError Settings) := do
  Host.report (logText threshold [⟨.debug, "Loading config from " ++ path⟩])
  match ← Host.readText path with
  | .error error => return .error (.file path error)
  | .ok text =>
      match parse text with
      | some settings => return .ok settings
      | none => return .error .parse

/-- A path that the user gives must exist. The user's own file may be missing. -/
def load (threshold : LogLevel) (explicit : Option String) :
    m (Except SettingsError Settings) := do
  match explicit with
  | some path => loadFrom threshold path
  | none =>
      match path? (← askVariables) with
      | none => return .ok {}
      | some path =>
          if ← Host.pathExists path then loadFrom threshold path else return .ok {}

/-- The directory of the file is created if it is missing. -/
def makeParent (path : String) : m (Except FileError Unit) := do
  match Path.parent? path with
  | none => return .ok ()
  | some parent =>
      if ← Host.pathExists parent then return .ok () else Host.makeDirectories parent

/-- Settings that have no text are not written. -/
def save (settings : Settings) (path : String) : m (Except SettingsError Unit) := do
  match ← makeParent path with
  | .error error => return .error (.file path error)
  | .ok () =>
      match settings.write with
      | none => return .error .serialize
      | some text => return (← Host.writeText path text).mapError (.file path)

def saveForUser (settings : Settings) : m (Except SettingsError Unit) := do
  match path? (← askVariables) with
  | some path => settings.save path
  | none => return .error .noDirectory

end Settings

end GlslFormula
