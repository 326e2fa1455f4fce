import GlslFormula.Host

namespace GlslFormula.Path

/-- A slash is added unless the left side is empty or ends in one. -/
def join (left right : String) : String :=
  match left.toList.getLast? with
  | none => right
  | some '/' => left ++ right
  | some _ => left ++ "/" ++ right

/-- The pieces between slashes. The current piece is collected in reverse. -/
def piecesFrom (current : List Char) : List Char → List String
  | [] => [String.ofList current.reverse]
  | '/' :: rest => String.ofList current.reverse :: piecesFrom [] rest
  | c :: rest => piecesFrom (c :: current) rest

/-- An absolute path has an empty first piece. -/
def pieces (path : String) : List String := piecesFrom [] path.toList

/-- These pieces do not lead anywhere else. -/
def isIdle (piece : String) : Bool := piece == "" || piece == "."

/-- Idle pieces at the end are dropped, but the first piece stays. The pieces are reversed. -/
def dropIdle : List String → List String
  | [] => []
  | [first] => [first]
  | piece :: rest => if isIdle piece then dropIdle rest else piece :: rest

/-- The pieces with slashes between them. The root is a slash alone. -/
def assemble (pieces : List String) : String :=
  if pieces = [""] then "/" else "/".intercalate pieces

/-- The path without its last piece. The root and the empty path have no parent. -/
def parent? (path : String) : Option String :=
  match dropIdle (pieces path).reverse with
  | [] => none
  | [first] => if first = "" then none else some ""
  | _ :: rest => some (assemble (dropIdle rest).reverse)

/-- A path must have fewer bytes than this. -/
def sizeLimit : Nat := 4096

/-- A piece of a path may have this many bytes. -/
def pieceLimit : Nat := 255

/-- A path that breaks one of these rules is refused before it is followed. -/
def refusal? (path : String) : Option FileError :=
  if path.toList.contains '\x00' then some .nulInName
  else if sizeLimit ≤ path.utf8ByteSize then some .nameTooLong
  else none

def isTooLong (piece : String) : Bool := decide (pieceLimit < piece.utf8ByteSize)

end GlslFormula.Path
