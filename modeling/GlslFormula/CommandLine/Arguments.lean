namespace GlslFormula.CommandLine

inductive Subcommand where
  | compile
  | tokens
  | tree
  | batch
  | repl
  | explain
  | version
  | help
deriving DecidableEq

namespace Subcommand

def all : List Subcommand :=
  [.compile, .tokens, .tree, .batch, .repl, .explain, .version, .help]

def name : Subcommand → String
  | .compile => "compile"
  | .tokens => "tokens"
  | .tree => "tree"
  | .batch => "batch"
  | .repl => "repl"
  | .explain => "explain"
  | .version => "version"
  | .help => "help"

def ofName? (name : String) : Option Subcommand :=
  all.find? fun subcommand => subcommand.name == name

end Subcommand

inductive Action where
  | compile (formula : String)
  | tokens (formula : String) (json : Bool)
  | tree (formula : String) (json : Bool)
  | batch (file : String)
  | repl
  | explain (code : String)
  | version
deriving DecidableEq

structure Invocation where
  verbosity : Nat
  settingsFile : Option String
  action : Action
deriving DecidableEq

/-- A request for help or for the version ends the reading, and so does a mistake. -/
inductive Stop where
  | help
  | version
  | usage
deriving DecidableEq

inductive Flag where
  | verbose
  | json
  | help
  | version
deriving DecidableEq

/-- The name of a file is not empty, but any other text may be. -/
inductive OperandKind where
  | text
  | file
deriving DecidableEq

/-- What is allowed before the subcommand, or after it. -/
structure Grammar where
  isOuter : Bool
  operand : Option OperandKind
  takesJson : Bool
deriving DecidableEq

namespace Grammar

def outer : Grammar := ⟨true, none, false⟩

def ofSubcommand : Subcommand → Grammar
  | .compile | .explain => ⟨false, some .text, false⟩
  | .tokens | .tree => ⟨false, some .text, true⟩
  | .batch => ⟨false, some .file, false⟩
  | .repl | .version | .help => ⟨false, none, false⟩

def longFlag? (grammar : Grammar) (name : List Char) : Option Flag :=
  match String.ofList name with
  | "verbose" => some .verbose
  | "help" => some .help
  | "json" => if grammar.takesJson then some .json else none
  | "version" => if grammar.isOuter then some .version else none
  | _ => none

def shortFlag? (grammar : Grammar) : Char → Option Flag
  | 'v' => some .verbose
  | 'h' => some .help
  | 'V' => if grammar.isOuter then some .version else none
  | _ => none

end Grammar

/-- A value is checked only when the next option or operand begins. -/
inductive Pending where
  | settingsFile (value : Option String)
  | operand (value : String)
deriving DecidableEq

/-- What one side of the subcommand has given so far. -/
structure Gathered where
  verbosity : Nat := 0
  settingsFile : Option String := none
  json : Bool := false
  operand : Option String := none
  hasOperand : Bool := false
  pending : Option Pending := none
deriving DecidableEq

namespace Gathered

/-- The option for the settings file was given without its value so far. -/
def awaitsValue (gathered : Gathered) : Bool := gathered.pending == some (.settingsFile none)

/-- The settings file is given at most once on each side. -/
def setSettingsFile (gathered : Gathered) (path : String) : Except Stop Gathered :=
  if path = "" ∨ gathered.settingsFile.isSome then .error .usage
  else .ok { gathered with settingsFile := some path }

def setOperand (gathered : Gathered) (grammar : Grammar) (text : String) :
    Except Stop Gathered :=
  if grammar.operand = some .file ∧ text = "" then .error .usage
  else .ok { gathered with operand := some text }

/-- The pending value is checked and stored. -/
def settle (gathered : Gathered) (grammar : Grammar) : Except Stop Gathered :=
  match gathered.pending with
  | none => .ok gathered
  | some (.settingsFile none) => .error .usage
  | some (.settingsFile (some path)) => { gathered with pending := none }.setSettingsFile path
  | some (.operand text) => { gathered with pending := none }.setOperand grammar text

def raise (gathered : Gathered) (grammar : Grammar) (flag : Flag) : Except Stop Gathered := do
  let settled ← gathered.settle grammar
  match flag with
  | .verbose => return { settled with verbosity := settled.verbosity + 1 }
  | .json => if settled.json then .error .usage else return { settled with json := true }
  | .help => .error .help
  | .version => .error .version

/-- The option for the settings file begins, with its value if that is attached. -/
def beginSettingsFile (gathered : Gathered) (grammar : Grammar) (value : Option (List Char)) :
    Except Stop Gathered := do
  let settled ← gathered.settle grammar
  match value with
  | some path => settled.setSettingsFile (String.ofList path)
  | none => return { settled with pending := some (.settingsFile none) }

/-- The name of a long option, and the value behind the first equals sign. -/
def splitEquals : List Char → List Char × Option (List Char)
  | [] => ([], none)
  | '=' :: value => ([], some value)
  | c :: rest => (c :: (splitEquals rest).1, (splitEquals rest).2)

/-- Flags take no value. -/
def addLong (gathered : Gathered) (grammar : Grammar) (body : List Char) :
    Except Stop Gathered :=
  let (name, value) := splitEquals body
  if name = "config".toList then gathered.beginSettingsFile grammar value
  else match grammar.longFlag? name, value with
    | some flag, none => gathered.raise grammar flag
    | _, _ => .error .usage

/-- Several flags may share one hyphen. The settings file takes the rest as its value. -/
def addShort (gathered : Gathered) (grammar : Grammar) : List Char → Except Stop Gathered
  | [] => .ok gathered
  | ['c'] => gathered.beginSettingsFile grammar none
  | 'c' :: '=' :: value => gathered.beginSettingsFile grammar (some value)
  | 'c' :: value => gathered.beginSettingsFile grammar (some value)
  | c :: rest =>
      match grammar.shortFlag? c with
      | none => .error .usage
      | some flag =>
          match gathered.raise grammar flag with
          | .ok next => next.addShort grammar rest
          | .error stop => .error stop

def addOperand (gathered : Gathered) (grammar : Grammar) (text : String) :
    Except Stop Gathered := do
  if grammar.operand.isNone || gathered.hasOperand then .error .usage
  else
    let settled ← gathered.settle grammar
    return { settled with hasOperand := true, pending := some (.operand text) }

/-- An argument without a hyphen is the awaited value, or else an operand. -/
def addPlain (gathered : Gathered) (grammar : Grammar) (text : String) :
    Except Stop Gathered :=
  if gathered.awaitsValue then
    .ok { gathered with pending := some (.settingsFile (some text)) }
  else gathered.addOperand grammar text

/-- The name of a subcommand ends the outer side, unless a value is awaited. -/
def subcommand? (gathered : Gathered) (grammar : Grammar) (text : String) :
    Option Subcommand :=
  if grammar.isOuter && !gathered.awaitsValue then Subcommand.ofName? text else none

/-- Behind two hyphens each argument is an operand. -/
def addOperands (gathered : Gathered) (grammar : Grammar) :
    List String → Except Stop Gathered
  | [] => .ok gathered
  | text :: rest =>
      match gathered.addOperand grammar text with
      | .ok next => next.addOperands grammar rest
      | .error stop => .error stop

/-- An argument that is not two hyphens alone. -/
def add (gathered : Gathered) (grammar : Grammar) (text : String) : Except Stop Gathered :=
  match text.toList with
  | '-' :: '-' :: body => gathered.addLong grammar body
  | '-' :: c :: body => gathered.addShort grammar (c :: body)
  | _ => gathered.addPlain grammar text

/-- One side of the subcommand, up to the subcommand and the arguments behind it. -/
def readSide (gathered : Gathered) (grammar : Grammar) :
    List String → Except Stop (Gathered × Option (Subcommand × List String))
  | [] => .ok (gathered, none)
  | text :: rest =>
      match gathered.subcommand? grammar text with
      | some subcommand => .ok (gathered, some (subcommand, rest))
      | none =>
          if text = "--" then
            (gathered.addOperands grammar rest).map fun final => (final, none)
          else match gathered.add grammar text with
            | .ok next => next.readSide grammar rest
            | .error stop => .error stop

/-- The operand of a subcommand must be given. -/
def action (gathered : Gathered) (subcommand : Subcommand) : Except Stop Action :=
  match subcommand, gathered.operand with
  | .compile, some formula => .ok (.compile formula)
  | .tokens, some formula => .ok (.tokens formula gathered.json)
  | .tree, some formula => .ok (.tree formula gathered.json)
  | .batch, some file => .ok (.batch file)
  | .explain, some code => .ok (.explain code)
  | .repl, _ => .ok .repl
  | .version, _ => .ok .version
  | _, _ => .error .usage

end Gathered

/-- Help is given about the tool or about one subcommand. -/
def readHelp : List String → Stop
  | [] => .help
  | [name] => if (Subcommand.ofName? name).isSome then .help else .usage
  | _ => .usage

/-- The side behind the subcommand is read first to its end, and it decides where both sides give
the same option. -/
def readArguments (arguments : List String) : Except Stop Invocation := do
  match ← ({} : Gathered).readSide .outer arguments with
  | (_, none) => .error .usage
  | (_, some (.help, rest)) => .error (readHelp rest)
  | (before, some (subcommand, rest)) =>
      let grammar := Grammar.ofSubcommand subcommand
      let (read, _) ← ({} : Gathered).readSide grammar rest
      let inner ← read.settle grammar
      let action ← inner.action subcommand
      let outer ← before.settle .outer
      return {
        verbosity := if inner.verbosity = 0 then outer.verbosity else inner.verbosity
        settingsFile := inner.settingsFile <|> outer.settingsFile
        action }

end GlslFormula.CommandLine
