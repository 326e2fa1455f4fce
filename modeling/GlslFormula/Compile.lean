import GlslFormula.Shader.Generate
import GlslFormula.Token.Scanner
import GlslFormula.Tree.Builder

namespace GlslFormula

/-- A formula fails in one of three stages. -/
inductive CompileError where
  | scan (error : ScanError)
  | parse (error : ParseError)
  | generate (error : Shader.GenerateError)
deriving DecidableEq

namespace CompileError

def message : CompileError → String
  | .scan error => error.message
  | .parse error => error.message
  | .generate error => error.message

def code : CompileError → String
  | .scan error => error.code
  | .parse error => error.code
  | .generate error => error.code

def stage : CompileError → String
  | .scan _ => "lex"
  | .parse _ => "parse"
  | .generate _ => "codegen"

/-- The character position that the error points at, if it has one. -/
def index? : CompileError → Option Nat
  | .scan error => some error.index
  | .parse error => error.index?
  | .generate _ => none

end CompileError

/-- The expression tree of a formula. -/
def parse (precedence : Precedence) (formula : String) : Except CompileError Tree :=
  match tokenize formula with
  | .error error => .error (.scan error)
  | .ok tokens => (Tree.ofTokens precedence tokens).mapError .parse

/-- The shader expression of a formula. -/
def compile (precedence : Precedence) (formula : String) : Except CompileError String :=
  match parse precedence formula with
  | .error error => .error error
  | .ok tree => (Shader.generate tree).mapError .generate

/-- The results are in the order of the formulas. -/
def compileBatch (precedence : Precedence) (formulas : List String) :
    List (Except CompileError String) :=
  formulas.map (compile precedence)

end GlslFormula
