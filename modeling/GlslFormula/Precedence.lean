namespace GlslFormula

inductive Operator where
  | add
  | sub
  | mul
  | div
  | pow
deriving DecidableEq

namespace Operator

def all : List Operator := [.add, .sub, .mul, .div, .pow]

def symbol : Operator → String
  | .add => "+"
  | .sub => "-"
  | .mul => "*"
  | .div => "/"
  | .pow => "^"

def ofSymbol? (symbol : String) : Option Operator :=
  all.find? fun operator => operator.symbol == symbol

def isRightAssociative : Operator → Bool
  | .pow => true
  | _ => false

end Operator

/-- The distinct table gives each operator its own rank. The conventional table ranks sums
together and products together. -/
inductive Precedence where
  | distinct
  | conventional
deriving DecidableEq

namespace Precedence

/-- This is the name in settings. -/
def key : Precedence → String
  | .distinct => "distinct"
  | .conventional => "conventional"

/-- This is the name in messages. -/
def label : Precedence → String
  | .distinct => "Distinct"
  | .conventional => "Conventional"

def all : List Precedence := [.distinct, .conventional]

def ofKey? (key : String) : Option Precedence :=
  all.find? fun precedence => precedence.key == key

/-- A larger rank binds tighter. -/
def rank : Precedence → Operator → Nat
  | .distinct, .add => 0
  | .distinct, .sub => 1
  | .distinct, .mul => 2
  | .distinct, .div => 3
  | .distinct, .pow => 4
  | .conventional, .add | .conventional, .sub => 0
  | .conventional, .mul | .conventional, .div => 1
  | .conventional, .pow => 2

/-- A call binds tighter than each operator. -/
def functionRank (precedence : Precedence) : Nat :=
  (Operator.all.map precedence.rank).foldl max 0 + 1

/-- An incoming call has no operator. -/
def incomingRank (precedence : Precedence) : Option Operator → Nat
  | some operator => precedence.rank operator
  | none => precedence.functionRank

/-- On equal ranks only a left-associative operator of the conventional table climbs. -/
def climbsOnTie : Precedence → Option Operator → Bool
  | .conventional, some operator => !operator.isRightAssociative
  | _, _ => false

/-- The incoming operation takes over an enclosing operation of rank `existing`. -/
def mustClimb (precedence : Precedence) (existing : Nat) (incoming : Option Operator) : Bool :=
  if existing = precedence.incomingRank incoming then precedence.climbsOnTie incoming
  else decide (precedence.incomingRank incoming < existing)

end Precedence

end GlslFormula
