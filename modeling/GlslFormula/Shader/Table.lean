namespace GlslFormula.Shader

/-- A target is the shader function of an operation, with its operand count. -/
structure Target where
  name : String
  arity : Nat
deriving DecidableEq

/-- Symbols stand for constants. -/
def symbols : List (String × String) :=
  [("z", "z"), ("i", "I"), ("pi", "CMPLX_PI"), ("tau", "CMPLX_TAU"), ("e", "CMPLX_E")]

/-- Every operator takes two operands. -/
def operators : List (String × Target) :=
  [("+", "cmplxAdd"), ("-", "cmplxSub"), ("*", "cmplxMult"), ("/", "cmplxDiv"),
    ("^", "cmplxPow")].map fun entry => (entry.1, ⟨entry.2, 2⟩)

def functionNames : List String :=
  ["sqrt", "cbrt", "exp", "ln", "log", "log2", "log10", "sin", "cos", "tan", "sinh", "cosh",
    "tanh", "asin", "acos", "atan", "asinh", "acosh", "atanh", "abs", "arg", "Re", "Im"]

/-- The functions that do not take a single argument. The logarithm takes the value and the
base. -/
def arityOverrides : List (String × Nat) := [("log", 2)]

/-- All names are ASCII, where a letter has a single capital. -/
def capitalize (name : String) : String :=
  match name.toList with
  | [] => ""
  | first :: rest => String.ofList (first.toUpper :: rest)

def functionTarget (name : String) : Target :=
  ⟨"cmplx" ++ capitalize name, (arityOverrides.lookup name).getD 1⟩

def functions : List (String × Target) := functionNames.map fun name => (name, functionTarget name)

def symbol? (name : String) : Option String := symbols.lookup name

/-- An operator is looked up before a function. -/
def operation? (name : String) : Option Target :=
  (operators ++ functions).lookup name

end GlslFormula.Shader
