import GlslFormula.Toml.Reader

namespace GlslFormula.Toml

inductive Statement where
  | assign (keys : List String) (value : Value)
  | header (keys : List String)
  | arrayHeader (keys : List String)

/-- A statement ends with its line. Blanks and a comment may stand before the end. -/
def endLine (text : List Char) : Option (List Char) :=
  let afterComment := match skipSpacing text with
    | '#' :: rest => rest.dropWhile isCommentChar
    | rest => rest
  match afterComment with
  | [] => some []
  | '\n' :: rest => some rest
  | '\r' :: '\n' :: rest => some rest
  | _ => none

/-- The key of a header stands between one or two pairs of brackets. -/
def readHeader (text : List Char) : Option (Statement × List Char) :=
  match text with
  | '[' :: '[' :: start => do
      match ← readKey start with
      | (keys, ']' :: ']' :: rest) => return (.arrayHeader keys, rest)
      | _ => none
  | '[' :: start => do
      match ← readKey start with
      | (keys, ']' :: rest) => return (.header keys, rest)
      | _ => none
  | _ => none

def readAssignment (text : List Char) : Option (Statement × List Char) := do
  let ((keys, value), rest) ← readPair readValue text
  return (.assign keys value, rest)

def readStatement (text : List Char) : Option (Statement × List Char) :=
  match text with
  | '[' :: _ => readHeader text
  | _ => readAssignment text

/-- Each round reads at least one character. -/
def readStatements : (fuel : Nat) → List Char → Option (List Statement)
  | 0, _ => none
  | fuel + 1, text =>
      match skipSpacing text with
      | [] => some []
      | '#' :: rest => do readStatements fuel (← endLine ('#' :: rest))
      | '\n' :: rest => readStatements fuel rest
      | '\r' :: '\n' :: rest => readStatements fuel rest
      | start => do
          let (statement, rest) ← readStatement start
          return statement :: (← readStatements fuel (← endLine rest))

/-- A byte order mark at the start is not part of the text. -/
def dropMark : List Char → List Char
  | '\uFEFF' :: rest => rest
  | text => text

/-- A dotted key enters tables without a header of their own. -/
def dottedDescent : Descent := ⟨.dotted, fun form => form == .implied || form == .dotted⟩

/-- The path of a header enters each table that is not inline. -/
def headerDescent : Descent :=
  ⟨.implied, fun form => form == .implied || form == .dotted || form == .explicit⟩

/-- The section of the latest header is kept apart until the next one. -/
structure Assembly where
  root : Entries := []
  path : List String := []
  inArray : Bool := false
  current : Entries := []

/-- The path to the owner of a section, and the section's own key. -/
def splitPath (keys : List String) : Option (List String × String) :=
  match keys.reverse with
  | [] => none
  | key :: path => some (path.reverse, key)

/-- An array of tables gets one more element. -/
def addElement (key : String) (element : Entries) (entries : Entries) :
    Option (Unit × Entries) :=
  match entries.lookup key with
  | none => some ((), entries ++ [(key, .tables [element])])
  | some (.tables elements) =>
      some ((), Entries.replace key (.tables (element :: elements)) entries)
  | some _ => none

/-- The finished section goes to its place. -/
def Assembly.close (assembly : Assembly) : Option Entries :=
  match splitPath assembly.path with
  | none => some assembly.current
  | some (path, key) =>
      (headerDescent.change (fun _ owner =>
        if assembly.inArray then addElement key assembly.current owner
        else setNew key (.table .explicit assembly.current) owner)
        path .explicit assembly.root).map Prod.snd

/-- A header takes over a table that was only implied so far. -/
def takeSection (key : String) (owner : Entries) : Option (Entries × Entries) :=
  match owner.lookup key with
  | none => some ([], owner)
  | some (.table .implied entries) => some (entries, owner.erase key)
  | some _ => none

/-- An array header needs a free key or an array of tables. -/
def checkArray (key : String) (owner : Entries) : Option (Entries × Entries) :=
  match owner.lookup key with
  | none => some ([], owner)
  | some (.tables _) => some ([], owner)
  | some _ => none

def Assembly.openSection (assembly : Assembly) (inArray : Bool) (keys : List String) :
    Option Assembly := do
  let closed ← assembly.close
  let (path, key) ← splitPath keys
  let (current, root) ← headerDescent.change
    (fun _ owner => if inArray then checkArray key owner else takeSection key owner)
    path .explicit closed
  return { root, path := keys, inArray, current }

def Assembly.add (assembly : Assembly) : Statement → Option Assembly
  | .assign keys value => do
      let current ← setDotted dottedDescent keys value .explicit assembly.current
      return { assembly with current }
  | .header keys => assembly.openSection false keys
  | .arrayHeader keys => assembly.openSection true keys

/-- The entries of a whole document. -/
def readDocument (text : String) : Option Entries := do
  let start := dropMark text.toList
  let statements ← readStatements (start.length + 1) start
  let assembly ← statements.foldlM Assembly.add {}
  assembly.close

end GlslFormula.Toml
