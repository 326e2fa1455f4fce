namespace GlslFormula

inductive FileError where
  | notFound
  | alreadyExists
  | notDirectory
  | isDirectory
  | nameTooLong
  | nulInName
  | other (message : String)
deriving DecidableEq

def FileError.message : FileError → String
  | .notFound => "No such file or directory (os error 2)"
  | .alreadyExists => "File exists (os error 17)"
  | .notDirectory => "Not a directory (os error 20)"
  | .isDirectory => "Is a directory (os error 21)"
  | .nameTooLong => "File name too long (os error 36)"
  | .nulInName => "file name contained an unexpected NUL byte"
  | .other message => message

/-- The answer of an interactive program to one line. -/
structure Turn (State : Type) where
  state : State
  printed : String := ""
  reported : String := ""
  isLast : Bool := false

/-- A host has files, environment variables, an input with lines, and two outputs. -/
class Host (m : Type → Type) where
  readText (path : String) : m (Except FileError String)
  writeText (path text : String) : m (Except FileError Unit)
  pathExists (path : String) : m Bool
  /-- Missing directories on the way are created too. -/
  makeDirectories (path : String) : m (Except FileError Unit)
  getVariable (name : String) : m (Option String)
  print (text : String) : m Unit
  report (text : String) : m Unit
  /-- Before each line the notice is reported and the prompt is printed. The conversation ends with
  the input, or with a turn that is the last one. -/
  converse {State : Type} (notice prompt : String) (answer : State → String → Turn State)
    (state : State) : m State

end GlslFormula
