import GlslFormula.CommandLine.Run

namespace GlslFormula

def FileError.ofSystem : IO.Error → FileError
  | .noFileOrDirectory .. => .notFound
  | .alreadyExists .. => .alreadyExists
  | .inappropriateType _ 21 _ => .isDirectory
  | .invalidArgument _ 36 _ => .nameTooLong
  | .inappropriateType .. => .notDirectory
  | error => .other (toString error)

def attemptSystem {Result : Type} (path : String) (action : IO Result) :
    IO (Except FileError Result) := do
  match Path.refusal? path with
  | some error => return .error error
  | none =>
      try return .ok (← action)
      catch error => return .error (.ofSystem error)

def putText (stream : IO.FS.Stream) (text : String) : IO Unit := do
  stream.putStr text
  stream.flush

/-- The input ends with an empty line that has no line break. -/
partial def converseOnTerminal {State : Type} (notice prompt : String)
    (answer : State → String → Turn State) (state : State) : IO State := do
  putText (← IO.getStderr) notice
  putText (← IO.getStdout) prompt
  match textLines (← (← IO.getStdin).getLine) with
  | [] => return state
  | line :: _ =>
      let turn := answer state line
      putText (← IO.getStderr) turn.reported
      putText (← IO.getStdout) turn.printed
      if turn.isLast then return turn.state
      else converseOnTerminal notice prompt answer turn.state

instance : Host IO where
  readText path := attemptSystem path (IO.FS.readFile path)
  writeText path text := attemptSystem path (IO.FS.writeFile path text)
  pathExists path := do return (← attemptSystem path (IO.FS.realPath path)).isOk
  makeDirectories path :=
    if path = "" then return .ok () else attemptSystem path (IO.FS.createDirAll path)
  getVariable name := IO.getEnv name
  print text := do putText (← IO.getStdout) text
  report text := do putText (← IO.getStderr) text
  converse notice prompt answer state := converseOnTerminal notice prompt answer state

end GlslFormula

def main (arguments : List String) : IO UInt32 := do
  let status : Nat ← GlslFormula.CommandLine.run arguments
  return status.toUInt32
