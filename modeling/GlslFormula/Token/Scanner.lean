import GlslFormula.Token
import GlslFormula.Token.ScanError

namespace GlslFormula

/-- The scanner tells characters apart only by these classes. -/
inductive CharClass where
  | space
  | digit
  | letter
  | underscore
  | dot
  | comma
  | minus
  | operator
  | openParen
  | closeParen
  | other
deriving DecidableEq

namespace CharClass

/-- Only ASCII letters and digits belong to names and numbers. -/
def ofChar (c : Char) : CharClass :=
  if c.isDigit then .digit
  else if c.isAlpha then .letter
  else match c with
    | ' ' | '\t' => .space
    | '_' => .underscore
    | '.' => .dot
    | ',' => .comma
    | '-' => .minus
    | '+' | '*' | '/' | '^' => .operator
    | '(' => .openParen
    | ')' => .closeParen
    | _ => .other

/-- These classes may follow the first letter of a name. -/
def continuesIdentifier : CharClass → Bool
  | .letter | .digit | .underscore => true
  | _ => false

/-- A minus sign is an operator after a value. -/
def isOperator : CharClass → Bool
  | .operator | .minus => true
  | _ => false

end CharClass

/-- A closing parenthesis ends a group or an argument list. -/
inductive Bracket where
  | group
  | arguments
deriving DecidableEq

namespace Bracket

def openKind : Bracket → TokenKind
  | .group => .parenthesisOpen
  | .arguments => .functionArgsStart

def closeKind : Bracket → TokenKind
  | .group => .parenthesisClose
  | .arguments => .functionArgsEnd

def all : List Bracket := [.group, .arguments]

end Bracket

/-- The phase is what the scanner has read last. -/
inductive ScanPhase where
  | expectValue
  | afterSign
  | inIdentifier
  | inInteger
  | inDecimal
  | afterValue
deriving DecidableEq

/-- This is the complaint about a character that no rule of the phase takes. -/
def ScanPhase.complaint : ScanPhase → ScanReason
  | .expectValue => .expectedValue
  | .afterSign => .danglingSign
  | .inIdentifier => .invalidInIdentifier
  | .inInteger | .inDecimal => .invalidInNumber
  | .afterValue => .invalidAfterValue

/-- The open brackets and the emitted tokens are stored with the latest one first. -/
structure Scanner where
  phase : ScanPhase
  brackets : List Bracket
  buffer : String
  bufferStart : Nat
  emitted : List Token
deriving DecidableEq

namespace Scanner

def start : Scanner := ⟨.expectValue, [], "", 0, []⟩

/-- These are the emitted tokens in source order. -/
def tokens (scanner : Scanner) : List Token := scanner.emitted.reverse

def openGroups (scanner : Scanner) : Nat := scanner.brackets.length

def emit (scanner : Scanner) (kind : TokenKind) (text : String) (span : Span) : Scanner :=
  { scanner with emitted := ⟨kind, text, span⟩ :: scanner.emitted }

/-- A new literal or name starts with this character. -/
def begin (scanner : Scanner) (index : Nat) (c : Char) (phase : ScanPhase) : Scanner :=
  { scanner with phase, buffer := c.toString, bufferStart := index }

/-- The pending literal or name grows by this character. -/
def extend (scanner : Scanner) (c : Char) (phase : ScanPhase) : Scanner :=
  { scanner with phase, buffer := scanner.buffer.push c }

/-- The pending text becomes a token that stops before `stop`. -/
def flush (scanner : Scanner) (kind : TokenKind) (stop : Nat) : Scanner :=
  { scanner.emit kind scanner.buffer ⟨scanner.bufferStart, stop⟩ with buffer := "" }

/-- A pending literal or name becomes a value token. Other phases have nothing pending. -/
def settle (scanner : Scanner) (stop : Nat) : Scanner :=
  match scanner.phase with
  | .inInteger | .inDecimal => scanner.flush .number stop
  | .inIdentifier => scanner.flush .symbol stop
  | .expectValue | .afterSign | .afterValue => scanner

def multiply (scanner : Scanner) (index : Nat) : Scanner :=
  scanner.emit .implicitMultiply "" (.point index)

/-- A one-character token that asks for a value afterwards. -/
def separate (scanner : Scanner) (kind : TokenKind) (index : Nat) (c : Char) : Scanner :=
  { scanner.emit kind c.toString (.single index) with phase := .expectValue }

def openBracket (scanner : Scanner) (bracket : Bracket) (index : Nat) : Scanner :=
  { scanner.emit bracket.openKind "(" (.single index) with
    phase := .expectValue, brackets := bracket :: scanner.brackets }

/-- The innermost bracket closes. Nothing happens when no bracket is open. -/
def closeBracket? (scanner : Scanner) (index : Nat) : Option Scanner :=
  match scanner.brackets with
  | [] => none
  | bracket :: outer =>
      some { scanner.emit bracket.closeKind ")" (.single index) with
        phase := .afterValue, brackets := outer }

/-- A closing parenthesis needs an open bracket, and a comma an open argument list. -/
def bracketComplaint? (scanner : Scanner) : CharClass → Option ScanReason
  | .closeParen => if scanner.brackets.isEmpty then some .unmatchedClosing else none
  | .comma =>
      if scanner.brackets.head? = some .arguments then none else some .commaOutsideArguments
  | _ => none

/-- The transition reads one character of a class that the open brackets allow. -/
def transition (scanner : Scanner) (index : Nat) (c : Char) : Except ScanReason Scanner :=
  match CharClass.ofChar c, scanner.phase with
  | _, .afterSign =>
      if CharClass.ofChar c = .digit then .ok (scanner.extend c .inInteger)
      else .error .danglingSign
  | .space, .expectValue => .ok scanner
  | .space, _ => .ok { scanner.settle index with phase := .afterValue }
  | .digit, .expectValue => .ok (scanner.begin index c .inInteger)
  | .digit, .afterValue => .error .invalidAfterValue
  | .digit, phase => .ok (scanner.extend c phase)
  | .letter, .expectValue => .ok (scanner.begin index c .inIdentifier)
  | .letter, .inIdentifier => .ok (scanner.extend c .inIdentifier)
  | .letter, _ => .ok (((scanner.settle index).multiply index).begin index c .inIdentifier)
  | .underscore, .inIdentifier => .ok (scanner.extend c .inIdentifier)
  | .underscore, phase => .error phase.complaint
  | .dot, .inInteger => .ok (scanner.extend c .inDecimal)
  | .dot, _ => .error .misplacedPoint
  | .comma, .expectValue => .error .incompleteArgument
  | .comma, _ => .ok ((scanner.settle index).separate .argSeparator index c)
  | .minus, .expectValue => .ok (scanner.begin index c .afterSign)
  | .operator, .expectValue => .error .expectedValue
  | .minus, _ | .operator, _ => .ok ((scanner.settle index).separate .operator index c)
  | .openParen, .expectValue => .ok (scanner.openBracket .group index)
  | .openParen, .inIdentifier =>
      .ok ((scanner.flush .functionName index).openBracket .arguments index)
  | .openParen, _ => .ok (((scanner.settle index).multiply index).openBracket .group index)
  | .closeParen, .expectValue => .error .expectedValue
  | .closeParen, _ =>
      match (scanner.settle index).closeBracket? index with
      | some closed => .ok closed
      | none => .error .unmatchedClosing
  | .other, phase => .error phase.complaint

/-- A step reads the character `c` at position `index`. -/
def step (scanner : Scanner) (index : Nat) (c : Char) : Except ScanError Scanner :=
  match scanner.bracketComplaint? (CharClass.ofChar c) with
  | some reason => .error ⟨some c, index, reason⟩
  | none => (scanner.transition index c).mapError fun reason => ⟨some c, index, reason⟩

/-- The scanner reads characters from position `index` on and stops before a refused one. -/
def read (scanner : Scanner) : Nat → List Char → Scanner × Option ScanError
  | _, [] => (scanner, none)
  | index, c :: rest =>
      match scanner.step index c with
      | .ok next => next.read (index + 1) rest
      | .error error => (scanner, some error)

/-- The end of the formula completes a pending value. Open brackets are reported after that. -/
def finish (scanner : Scanner) (length : Nat) : Scanner × Option ScanError :=
  match scanner.phase with
  | .expectValue => (scanner, some ⟨none, length, .incompleteExpression⟩)
  | .afterSign => (scanner, some ⟨none, length, .danglingSign⟩)
  | _ =>
      ({ scanner.settle length with phase := .afterValue },
        if scanner.brackets.isEmpty then none
        else some ⟨none, length, .unclosedGroup scanner.openGroups⟩)

/-- A run reads a whole formula and ends it. It returns the scanner where it stopped. -/
def run (scanner : Scanner) (formula : List Char) : Scanner × Option ScanError :=
  match scanner.read 0 formula with
  | (stopped, some error) => (stopped, some error)
  | (stopped, none) => stopped.finish formula.length

end Scanner

/-- A formula is split into its tokens, or refused at the first character that cannot be read. -/
def tokenize (formula : String) : Except ScanError (List Token) :=
  match Scanner.start.run formula.toList with
  | (scanner, none) => .ok scanner.tokens
  | (_, some error) => .error error

end GlslFormula
