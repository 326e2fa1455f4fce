import GlslFormula.Shader.Table
import GlslFormula.Text.Bytes

namespace GlslFormula

/-- The display is listed and the replacement is inserted. -/
structure Candidate where
  display : String
  replacement : String
deriving DecidableEq

structure Completion where
  start : Nat
  candidates : List Candidate
deriving DecidableEq

namespace Completion

def commands : List String := [":tokens", ":tree", ":explain", ":precedence", ":help", ":quit"]

/-- Command names start with a colon. -/
def isWordChar (c : Char) : Bool := c.isAlphanum || c == '_' || c == ':'

/-- The characters before a byte position. A position behind the end or inside a character has
none. -/
def headAt? : List Char → Nat → Option (List Char)
  | _, 0 => some []
  | [], _ + 1 => none
  | c :: rest, position + 1 =>
      if c.utf8Size ≤ position + 1 then
        (headAt? rest (position + 1 - c.utf8Size)).map (c :: ·)
      else none

/-- The longest run of word characters at the end. -/
def wordOf (head : List Char) : List Char := (head.reverse.takeWhile isWordChar).reverse

/-- The text before the word. -/
def beforeWord (head : List Char) : List Char := (head.reverse.dropWhile isWordChar).reverse

/-- The word starts one byte behind the start of the character before it. A longer character has
no place there. -/
def start? (before : List Char) : Option Nat :=
  match before.getLast? with
  | none => some 0
  | some breaker => if breaker.utf8Size = 1 then some (byteSize before) else none

def ofSymbol (name : String) : Candidate := ⟨name, name⟩

/-- A function is inserted with its opening parenthesis. -/
def ofFunction (name : String) (target : Shader.Target) : Candidate :=
  ⟨name ++ "/" ++ toString target.arity, name ++ "("⟩

def startsWith (word : List Char) (name : String) : Bool := word.isPrefixOf name.toList

/-- The symbols that start with the word and behind them the functions that do. -/
def matching (word : List Char) : List Candidate :=
  (Shader.symbols.filter fun entry => startsWith word entry.1).map
      (fun entry => ofSymbol entry.1) ++
    (Shader.functions.filter fun entry => startsWith word entry.1).map
      fun entry => ofFunction entry.1 entry.2

def byReplacement (candidates : List Candidate) : List Candidate :=
  candidates.mergeSort fun first second => decide (first.replacement ≤ second.replacement)

/-- Of neighbours that insert the same text, the first stays. -/
def withoutRepeats (candidates : List Candidate) : List Candidate :=
  candidates.eraseRepsBy fun first second => first.replacement == second.replacement

/-- Commands keep the order of their table. -/
def candidatesFor (word : List Char) : List Candidate :=
  match word with
  | [] => []
  | ':' :: _ => (commands.filter (startsWith word)).map ofSymbol
  | _ => withoutRepeats (byReplacement (matching word))

end Completion

/-- There is no completion at a position that is not between two characters. -/
def complete (line : String) (position : Nat) : Option Completion := do
  let head ← Completion.headAt? line.toList position
  let start ← Completion.start? (Completion.beforeWord head)
  return ⟨start, Completion.candidatesFor (Completion.wordOf head)⟩

end GlslFormula
