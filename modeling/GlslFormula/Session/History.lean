import GlslFormula.Text.Blank
import GlslFormula.Text.Lines

namespace GlslFormula

/-- The entries are stored with the oldest one first. The history is fresh when a line was added
after it was read. -/
structure History where
  capacity : Nat
  entries : List String
  isFresh : Bool
deriving DecidableEq

namespace History

def empty (capacity : Nat) : History := ⟨capacity, [], false⟩

/-- A line that starts with a blank is private. A repeated line is not kept twice. -/
def ignores (history : History) (line : String) : Bool :=
  history.capacity == 0 || (line.toList.head?.map isBlank).getD true ||
    history.entries.getLast? == some line

/-- The oldest entry makes room when the history is full. -/
def push (history : History) (line : String) : History :=
  { history with
    entries := (if history.entries.length = history.capacity then history.entries.tail
      else history.entries) ++ [line]
    isFresh := true }

def add (history : History) (line : String) : History :=
  if history.ignores line then history else history.push line

/-- The first line of a history file whose entries are escaped. -/
def marker : String := "#V2"

def escapeChar : Char → List Char
  | '\\' => ['\\', '\\']
  | '\n' => ['\\', 'n']
  | c => [c]

def escape (text : List Char) : List Char := text.flatMap escapeChar

/-- Only line feeds and backslashes are escaped. -/
def unescape? : List Char → Option (List Char)
  | [] => some []
  | '\\' :: 'n' :: rest => (unescape? rest).map ('\n' :: ·)
  | '\\' :: '\\' :: rest => (unescape? rest).map ('\\' :: ·)
  | '\\' :: _ => none
  | c :: rest => (unescape? rest).map (c :: ·)

def text (history : History) : String :=
  marker ++ "\n" ++
    String.join (history.entries.map fun entry =>
      String.ofList (escape entry.toList) ++ "\n")

/-- A line with another escape is kept as it is. -/
def decodeLine (line : String) : String :=
  match unescape? line.toList with
  | some entry => String.ofList entry
  | none => line

/-- The lines of a file and whether they are escaped. The first line is an entry when it is not
the marker, even if it is empty. -/
def fileLines (text : String) : List String × Bool :=
  match textLines text with
  | [] => ([], false)
  | first :: rest =>
      if first = marker then (rest.filter (· ≠ ""), true)
      else (first :: rest.filter (· ≠ ""), false)

/-- The lines that have a wrong escape. -/
def badLines (text : String) : List String :=
  match fileLines text with
  | (lines, true) => lines.filter fun line => (unescape? line.toList).isNone
  | (_, false) => []

def fileEntries (text : String) : List String :=
  match fileLines text with
  | (lines, true) => lines.map decodeLine
  | (lines, false) => lines

/-- The entries of a file are added under the usual rules. -/
def read (capacity : Nat) (text : String) : History :=
  { (fileEntries text).foldl add (empty capacity) with isFresh := false }

end History

end GlslFormula
