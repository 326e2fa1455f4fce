import GlslFormula.Toml.Quoted
import GlslFormula.Toml.Value
import GlslFormula.Word

namespace GlslFormula.Toml

/-- Digits may be parted by single underscores. The result has no underscores. -/
def digitRun (isDigit : Char → Bool) : List Char → List Char × List Char
  | '_' :: c :: rest =>
      if isDigit c then
        let run := digitRun isDigit rest
        (c :: run.1, run.2)
      else ([], '_' :: c :: rest)
  | c :: rest =>
      if isDigit c then
        let run := digitRun isDigit rest
        (c :: run.1, run.2)
      else ([], c :: rest)
  | [] => ([], [])

/-- A run of digits starts with a digit. -/
def digits? (isDigit : Char → Bool) : List Char → Option (List Char × List Char)
  | c :: rest =>
      if isDigit c then
        let run := digitRun isDigit rest
        some (c :: run.1, run.2)
      else none
  | [] => none

def readSign : List Char → Bool × List Char
  | '-' :: rest => (true, rest)
  | '+' :: rest => (false, rest)
  | text => (false, text)

/-- A decimal integer has no leading zero. -/
def wholeDigits? : List Char → Option (List Char × List Char)
  | '0' :: rest => some (['0'], rest)
  | text => digits? Char.isDigit text

def decimalNumber (digits : List Char) : Nat :=
  digits.foldl (fun number digit => number * 10 + (digit.toNat - 48)) 0

/-- Integers are signed words of 64 bits. -/
def inWord (value : Int) : Bool := -(signedCount : Int) ≤ value && value < (signedCount : Int)

def integer? (value : Int) : Option Value :=
  if inWord value then some (.integer value) else none

def isDigitOf (base : Nat) (c : Char) : Bool :=
  match hexValue? c with
  | some value => value < base
  | none => false

def numberInBase (base : Nat) (digits : List Char) : Nat :=
  digits.foldl (fun number digit => number * base + (hexValue? digit).getD 0) 0

/-- A number with a base letter has no sign. -/
def basedInteger (base : Nat) (text : List Char) : Option (Value × List Char) := do
  let (digits, rest) ← digits? (isDigitOf base) text
  let value ← integer? (numberInBase base digits)
  return (value, rest)

/-- The digits of an exponent, if one follows. -/
def readExponent : List Char → Option (Int × List Char)
  | c :: text =>
      if c = 'e' ∨ c = 'E' then do
        let (negative, unsigned) := readSign text
        let (digits, rest) ← digits? Char.isDigit unsigned
        let size : Int := decimalNumber digits
        return (if negative then -size else size, rest)
      else none
  | [] => none

/-- The fraction digits after a point, if one follows. -/
def readFraction : List Char → Option (List Char × List Char)
  | '.' :: text => digits? Char.isDigit text
  | _ => none

/-- This is the first number that a double rounds up to infinity. -/
def doubleLimit : Nat := (Nat.pow 2 54 - 1) * Nat.pow 2 970

/-- The test compares exactly, and only where the number of digits leaves a doubt. -/
def overflowsDouble (digits : Nat) (exponent : Int) : Bool :=
  if digits = 0 then false
  else
    let magnitude : Int := (toString digits).length + exponent
    if magnitude > 310 then true
    else if magnitude < 300 then false
    else if exponent ≥ 0 then doubleLimit ≤ digits * Nat.pow 10 exponent.toNat
    else doubleLimit * Nat.pow 10 (-exponent).toNat ≤ digits

/-- A float that rounds up to positive infinity is refused. -/
def float? (negative : Bool) (whole fraction : List Char) (exponent : Int) : Option Value :=
  if !negative && overflowsDouble (decimalNumber (whole ++ fraction)) (exponent - fraction.length)
  then none
  else some .float

/-- A decimal is a float when a fraction or an exponent follows the whole part. -/
def readDecimal (text : List Char) : Option (Value × List Char) := do
  let (negative, unsigned) := readSign text
  let (whole, rest) ← wholeDigits? unsigned
  match readExponent rest with
  | some (exponent, after) => return (← float? negative whole [] exponent, after)
  | none =>
      match readFraction rest with
      | some (fraction, after) =>
          match readExponent after with
          | some (exponent, final) => return (← float? negative whole fraction exponent, final)
          | none => return (← float? negative whole fraction 0, after)
      | none =>
          let size : Int := decimalNumber whole
          return (← integer? (if negative then -size else size), rest)

/-- Infinity and the undefined number may have a sign. -/
def readSpecial (text : List Char) : Option (Value × List Char) :=
  match (readSign text).2 with
  | 'i' :: 'n' :: 'f' :: rest => some (.float, rest)
  | 'n' :: 'a' :: 'n' :: rest => some (.float, rest)
  | _ => none

/-- Two digits with a value in the range. -/
def twoDigits? (low high : Nat) : List Char → Option (Nat × List Char)
  | a :: b :: rest =>
      if a.isDigit && b.isDigit then
        let value := decimalNumber [a, b]
        if low ≤ value ∧ value ≤ high then some (value, rest) else none
      else none
  | _ => none

def fourDigits? : List Char → Option (Nat × List Char)
  | a :: b :: c :: d :: rest =>
      if [a, b, c, d].all Char.isDigit then some (decimalNumber [a, b, c, d], rest) else none
  | _ => none

def expect? (c : Char) : List Char → Option (List Char)
  | first :: rest => if first = c then some rest else none
  | [] => none

def isLeapYear (year : Nat) : Bool := year % 4 == 0 && (year % 100 != 0 || year % 400 == 0)

def daysInMonth (year month : Nat) : Nat :=
  if month = 2 then (if isLeapYear year then 29 else 28)
  else if month ∈ [4, 6, 9, 11] then 30
  else 31

/-- The result is the text after the date. -/
def readDate (text : List Char) : Option (List Char) := do
  let (year, afterYear) ← fourDigits? text
  let (month, afterMonth) ← twoDigits? 1 12 (← expect? '-' afterYear)
  let (day, rest) ← twoDigits? 1 31 (← expect? '-' afterMonth)
  if day ≤ daysInMonth year month then some rest else none

/-- Digits of a second's fraction are optional. -/
def dropFraction (text : List Char) : List Char :=
  match text with
  | '.' :: c :: rest => if c.isDigit then rest.dropWhile Char.isDigit else text
  | _ => text

/-- The result is the text after the time. -/
def readTime (text : List Char) : Option (List Char) := do
  let (_, afterHour) ← twoDigits? 0 23 text
  let (_, afterMinute) ← twoDigits? 0 59 (← expect? ':' afterHour)
  let (_, rest) ← twoDigits? 0 60 (← expect? ':' afterMinute)
  return dropFraction rest

/-- An offset is a letter `Z`, or hours and minutes with a sign. -/
def readOffset : List Char → Option (List Char)
  | 'Z' :: rest => some rest
  | 'z' :: rest => some rest
  | c :: rest =>
      if c = '+' ∨ c = '-' then do
        let (_, afterHour) ← twoDigits? 0 23 rest
        let (_, final) ← twoDigits? 0 59 (← expect? ':' afterHour)
        return final
      else none
  | [] => none

/-- A time may follow a date, after a letter `T` or a space. -/
def readDayTime : List Char → Option (List Char)
  | c :: rest =>
      if c = 'T' ∨ c = 't' ∨ c = ' ' then do
        let afterTime ← readTime rest
        return (readOffset afterTime).getD afterTime
      else none
  | [] => none

def readDatetime (text : List Char) : Option (Value × List Char) :=
  match readDate text with
  | some rest => some (.datetime, (readDayTime rest).getD rest)
  | none => (readTime text).map fun rest => (.datetime, rest)

/-- A date is tried first, because it starts like a number. -/
def readNumber (text : List Char) : Option (Value × List Char) :=
  match readDatetime text with
  | some result => some result
  | none =>
      match text with
      | '0' :: 'x' :: rest => basedInteger 16 rest
      | '0' :: 'o' :: rest => basedInteger 8 rest
      | '0' :: 'b' :: rest => basedInteger 2 rest
      | _ =>
          match readDecimal text with
          | some result => some result
          | none => readSpecial text

end GlslFormula.Toml
