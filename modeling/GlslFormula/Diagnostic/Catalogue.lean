namespace GlslFormula

inductive ErrorCategory where
  | scan
  | parse
  | generate
deriving DecidableEq

namespace ErrorCategory

def label : ErrorCategory → String
  | .scan => "Lexer"
  | .parse => "Parser"
  | .generate => "Code generation"

/-- This is the name in structured output. -/
def key : ErrorCategory → String
  | .scan => "lexer"
  | .parse => "parser"
  | .generate => "codegen"

def all : List ErrorCategory := [.scan, .parse, .generate]

def ofKey? (key : String) : Option ErrorCategory :=
  all.find? fun category => category.key == key

end ErrorCategory

structure CatalogueEntry where
  code : String
  category : ErrorCategory
  title : String
  explanation : String
deriving DecidableEq

/-- The entry as the reader sees it. -/
def CatalogueEntry.text (entry : CatalogueEntry) : String :=
  entry.code ++ " (" ++ entry.category.label ++ "): " ++ entry.title ++ "\n\n" ++
    entry.explanation

namespace Catalogue

def entries : List CatalogueEntry :=
  [
    ⟨"E0001", .scan, "unmatched closing parenthesis",
      "A `)` appeared with no open `(` or argument list to close.\n" ++
      "Remove it or add the missing `(`."⟩,
    ⟨"E0002", .scan, "misplaced decimal point",
      "A `.` must sit between digits of a single number, as in `2.5`.\n" ++
      "Forms like `.5`, `z.` or `1.2.3` are rejected."⟩,
    ⟨"E0003", .scan, "comma outside argument list",
      "Commas only separate function arguments, as in `log(z, 2)`.\n" ++
      "A comma inside plain parentheses or at the top level is an error."⟩,
    ⟨"E0004", .scan, "incomplete argument",
      "The argument before a comma ends in an operator or a sign, as in `log(2*, 3)`."⟩,
    ⟨"E0005", .scan, "dangling minus sign",
      "A `-` where a value is expected starts a negative number and must be followed by a " ++
      "digit.\n" ++
      "Write `-1*z` instead of `-z`."⟩,
    ⟨"E0006", .scan, "unexpected character",
      "The character is not valid at this position: only digits, `.`, ASCII letters, `_`,\n" ++
      "`+ - * / ^`, parentheses, commas and spaces are accepted, each in specific places."⟩,
    ⟨"E0007", .scan, "incomplete expression",
      "The formula ended where a number, variable or function name was expected,\n" ++
      "for example after a trailing operator (`2+`) or in an empty formula."⟩,
    ⟨"E0008", .scan, "unclosed group",
      "The formula ended while a `(` or a function argument list was still open."⟩,
    ⟨"E1001", .parse, "unexpected token",
      "The token cannot follow what came before it, for example two operators\n" ++
      "in a row or a value directly after another value."⟩,
    ⟨"E1002", .parse, "unknown operator",
      "Only `+ - * / ^` are binary operators."⟩,
    ⟨"E1003", .parse, "unexpected end of tokens",
      "The token stream ended before the expression was complete."⟩,
    ⟨"E1004", .parse, "unclosed scope",
      "The token stream ended with a group or argument list still open."⟩,
    ⟨"E2001", .generate, "wrong number of top-level expressions",
      "A formula must contain exactly one expression."⟩,
    ⟨"E2002", .generate, "unknown symbol",
      "Available symbols: `z` (the plane coordinate), `i`, `pi`, `tau` and `e`."⟩,
    ⟨"E2003", .generate, "unknown function",
      "Available functions: sqrt, cbrt, exp, ln, log, log2, log10, sin, cos, tan,\n" ++
      "sinh, cosh, tanh, asin, acos, atan, asinh, acosh, atanh, abs, arg, Re, Im."⟩,
    ⟨"E2004", .generate, "wrong number of arguments",
      "Every function takes one argument except `log(value, base)`, which takes two."⟩,
    ⟨"E2005", .generate, "malformed expression tree",
      "The tree handed to the code generator contains a root marker below its top.\n" ++
      "This indicates a bug in the tool producing the tree."⟩
  ]

/-- Codes are compared without regard to the case of ASCII letters. -/
def find? (code : String) : Option CatalogueEntry :=
  entries.find? fun entry => entry.code.toList == code.toList.map Char.toUpper

def inCategory (category : ErrorCategory) : List CatalogueEntry :=
  entries.filter fun entry => entry.category == category

end Catalogue

end GlslFormula
