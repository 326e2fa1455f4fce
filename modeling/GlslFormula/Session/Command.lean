import GlslFormula.Compile.Event
import GlslFormula.Diagnostic.Catalogue
import GlslFormula.Session

namespace GlslFormula

inductive Command where
  | quit
  | help
  | tokens (formula : String)
  | tree (formula : String)
  | explain (code : String)
  | precedence
  | nothing
  | unknown (line : String)
deriving DecidableEq

inductive CommandReply where
  | exit
  | proceed
  | output (text : String)
deriving DecidableEq

namespace Command

/-- The name ends at the first blank. The argument has no blanks around it. -/
def splitName (text : List Char) : String × String :=
  match splitBlank text with
  | some (name, argument) => (String.ofList name, String.ofList (trim argument))
  | none => (String.ofList text, "")

/-- Leading colons are not part of the name. -/
def ofLine (line : String) : Command :=
  let (name, argument) := splitName ((trim line.toList).dropWhile (· == ':'))
  match name with
  | "quit" | "q" => .quit
  | "help" | "h" => .help
  | "tokens" | "t" => .tokens argument
  | "tree" => .tree argument
  | "explain" | "e" => .explain argument
  | "precedence" => .precedence
  | "" => .nothing
  | _ => .unknown (trimText line)

def helpLines : List String :=
  ["Type a formula to compile it. Available commands:",
    "  :tokens, :t <formula>  - Show the token stream",
    "  :tree <formula>        - Show the expression tree",
    "  :explain, :e <code>    - Explain an error code",
    "  :precedence            - Show the precedence table in use",
    "  :help, :h              - Show this help",
    "  :quit, :q              - Exit the REPL"]

def usage : String := "Usage: :<command> <formula>"

/-- Only commands about a formula compile something. -/
def events (precedence : Precedence) : Command → List CompileEvent
  | .tokens formula => if formula = "" then [] else scanEvents formula
  | .tree formula => if formula = "" then [] else parseEvents precedence formula
  | _ => []

end Command

namespace Session

/-- One line for each token. -/
def tokensText (session : Session) (formula : String) : String :=
  match tokenize formula with
  | .ok tokens => "\n".intercalate (tokens.map Token.line)
  | .error error => session.reply (.scan error) formula

def treeText (session : Session) (formula : String) : String :=
  match parse session.precedence formula with
  | .ok tree => trimTextEnd tree.outline
  | .error error => session.reply error formula

/-- A command about a formula needs one. -/
def aboutFormula (formula : String) (text : String → String) : CommandReply :=
  .output (if formula = "" then Command.usage else text formula)

def explainText (code : String) : String :=
  match Catalogue.find? code with
  | some entry => entry.text
  | none => "Unknown error code: " ++ code

def perform (session : Session) : Command → CommandReply
  | .quit => .exit
  | .help => .output ("\n".intercalate Command.helpLines)
  | .tokens formula => aboutFormula formula session.tokensText
  | .tree formula => aboutFormula formula session.treeText
  | .explain code => .output (explainText code)
  | .precedence => .output session.precedence.label
  | .nothing => .proceed
  | .unknown line => .output ("Unknown command: " ++ line)

end Session

end GlslFormula
