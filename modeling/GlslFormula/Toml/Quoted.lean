namespace GlslFormula.Toml

/-- Control characters other than the tab cannot be written as they are. -/
def isControl (c : Char) : Bool := (c.toNat < 0x20 && c != '\t') || c.toNat == 0x7F

/-- These characters stand for themselves between double quotes. -/
def isBasicChar (c : Char) : Bool := !isControl c && c != '"' && c != '\\'

/-- These characters stand for themselves between single quotes. -/
def isLiteralChar (c : Char) : Bool := !isControl c && c != '\''

def hexValue? (c : Char) : Option Nat :=
  if c.isDigit then some (c.toNat - 48)
  else if 'a' ≤ c ∧ c ≤ 'f' then some (c.toNat - 87)
  else if 'A' ≤ c ∧ c ≤ 'F' then some (c.toNat - 55)
  else none

/-- The digits are read with the most significant one first. -/
def hexNumber? (digits : List Char) : Option Nat :=
  digits.foldlM (fun number digit => (hexValue? digit).map (number * 16 + ·)) 0

/-- Surrogates and numbers beyond Unicode are no characters. -/
def hexChar? (digits : List Char) : Option Char := do
  let number ← hexNumber? digits
  if number.isValidChar then some (Char.ofNat number) else none

/-- An escape of one character after the backslash. -/
def simpleEscape? : Char → Option Char
  | 'b' => some '\x08'
  | 't' => some '\t'
  | 'n' => some '\n'
  | 'f' => some '\x0c'
  | 'r' => some '\r'
  | '"' => some '"'
  | '\\' => some '\\'
  | _ => none

/-- The result is the decoded text and the text after the closing quote. -/
abbrev Decoded := Option (List Char × List Char)

def Decoded.push (c : Char) (decoded : Decoded) : Decoded :=
  decoded.map fun parts => (c :: parts.1, parts.2)

/-- The text after an opening double quote. -/
def basicBody : List Char → Decoded
  | [] => none
  | '"' :: rest => some ([], rest)
  | '\\' :: 'u' :: a :: b :: c :: d :: rest =>
      (hexChar? [a, b, c, d]).bind fun decoded => Decoded.push decoded (basicBody rest)
  | '\\' :: 'U' :: a :: b :: c :: d :: e :: f :: g :: h :: rest =>
      (hexChar? [a, b, c, d, e, f, g, h]).bind fun decoded =>
        Decoded.push decoded (basicBody rest)
  | '\\' :: c :: rest =>
      (simpleEscape? c).bind fun decoded => Decoded.push decoded (basicBody rest)
  | c :: rest => if isBasicChar c then Decoded.push c (basicBody rest) else none

/-- The text after an opening single quote. -/
def literalBody : List Char → Decoded
  | [] => none
  | '\'' :: rest => some ([], rest)
  | c :: rest => if isLiteralChar c then Decoded.push c (literalBody rest) else none

def isSpacing (c : Char) : Bool := c == ' ' || c == '\t'

/-- The rest of the line after a backslash is blank. -/
def endsLine (text : List Char) : Bool :=
  match text.dropWhile isSpacing with
  | '\n' :: _ => true
  | '\r' :: '\n' :: _ => true
  | _ => false

/-- The text after three opening double quotes. A backslash at the end of a line removes the
blanks and line breaks after it, which is what `trimming` does. Up to two quotes before the
closing ones belong to the text. -/
def longBasicBody : (trimming : Bool) → List Char → Decoded
  | _, [] => none
  | true, ' ' :: rest => longBasicBody true rest
  | true, '\t' :: rest => longBasicBody true rest
  | true, '\n' :: rest => longBasicBody true rest
  | true, '\r' :: '\n' :: rest => longBasicBody true rest
  | _, '"' :: '"' :: '"' :: '"' :: '"' :: rest => some (['"', '"'], rest)
  | _, '"' :: '"' :: '"' :: '"' :: rest => some (['"'], rest)
  | _, '"' :: '"' :: '"' :: rest => some ([], rest)
  | _, '"' :: rest => Decoded.push '"' (longBasicBody false rest)
  | _, '\n' :: rest => Decoded.push '\n' (longBasicBody false rest)
  | _, '\r' :: '\n' :: rest => Decoded.push '\n' (longBasicBody false rest)
  | _, '\\' :: 'u' :: a :: b :: c :: d :: rest =>
      (hexChar? [a, b, c, d]).bind fun decoded =>
        Decoded.push decoded (longBasicBody false rest)
  | _, '\\' :: 'U' :: a :: b :: c :: d :: e :: f :: g :: h :: rest =>
      (hexChar? [a, b, c, d, e, f, g, h]).bind fun decoded =>
        Decoded.push decoded (longBasicBody false rest)
  | _, '\\' :: c :: rest =>
      if endsLine (c :: rest) then longBasicBody true (c :: rest)
      else (simpleEscape? c).bind fun decoded => Decoded.push decoded (longBasicBody false rest)
  | _, c :: rest => if isBasicChar c then Decoded.push c (longBasicBody false rest) else none

/-- The text after three opening single quotes. -/
def longLiteralBody : List Char → Decoded
  | [] => none
  | '\'' :: '\'' :: '\'' :: '\'' :: '\'' :: rest => some (['\'', '\''], rest)
  | '\'' :: '\'' :: '\'' :: '\'' :: rest => some (['\''], rest)
  | '\'' :: '\'' :: '\'' :: rest => some ([], rest)
  | '\'' :: rest => Decoded.push '\'' (longLiteralBody rest)
  | '\n' :: rest => Decoded.push '\n' (longLiteralBody rest)
  | '\r' :: '\n' :: rest => Decoded.push '\n' (longLiteralBody rest)
  | c :: rest => if isLiteralChar c then Decoded.push c (longLiteralBody rest) else none

/-- A line break directly after three opening quotes is not part of the text. -/
def dropFirstBreak : List Char → List Char
  | '\n' :: rest => rest
  | '\r' :: '\n' :: rest => rest
  | text => text

/-- A key may be quoted on one line only. -/
def readShort : List Char → Decoded
  | '"' :: rest => basicBody rest
  | '\'' :: rest => literalBody rest
  | _ => none

/-- Three quotes always open a long text. -/
def readQuoted : List Char → Decoded
  | '"' :: '"' :: '"' :: rest => longBasicBody false (dropFirstBreak rest)
  | '\'' :: '\'' :: '\'' :: rest => longLiteralBody (dropFirstBreak rest)
  | text => readShort text

/-- The longest run of the character. -/
def longestRun (target : Char) : (current longest : Nat) → List Char → Nat
  | current, longest, [] => max current longest
  | current, longest, c :: rest =>
      if c = target then longestRun target (current + 1) longest rest
      else longestRun target 0 (max current longest) rest

/-- A line break has a spelling of its own in long text. -/
def needsEscape (c : Char) : Bool := isControl c && c != '\n'

def hexDigit (value : Nat) : Char :=
  if value < 10 then Char.ofNat (48 + value) else Char.ofNat (55 + value)

/-- Control characters without a short escape are written with four digits. -/
def escapeChar (c : Char) : List Char :=
  match c with
  | '\x08' => ['\\', 'b']
  | '\t' => ['\\', 't']
  | '\n' => ['\\', 'n']
  | '\x0c' => ['\\', 'f']
  | '\r' => ['\\', 'r']
  | '"' => ['\\', '"']
  | '\\' => ['\\', '\\']
  | _ =>
      if isControl c then
        ['\\', 'u', '0', '0', hexDigit (c.toNat / 16), hexDigit (c.toNat % 16)]
      else [c]

def escapeBasic (text : List Char) : List Char := text.flatMap escapeChar

/-- Line breaks stay, and a third quote in a row is escaped. -/
def escapeLong : (quotes : Nat) → List Char → List Char
  | _, [] => []
  | quotes, '"' :: rest =>
      if quotes < 2 then '"' :: escapeLong (quotes + 1) rest
      else '\\' :: '"' :: escapeLong 0 rest
  | _, '\n' :: rest => '\n' :: escapeLong 0 rest
  | _, c :: rest => escapeChar c ++ escapeLong 0 rest

/-- A long text that holds a line break starts on a line of its own. -/
def longOpening (quotes : List Char) (text : List Char) : List Char :=
  if '\n' ∈ text then quotes ++ ['\n'] else quotes

/-- The first form that needs no escape other than the tab is used: double quotes, single quotes,
three double quotes, three single quotes. Otherwise the text is escaped. -/
def writeQuoted (text : List Char) : List Char :=
  let escapes := text.any needsEscape
  let backslash := decide ('\\' ∈ text)
  let lineBreak := decide ('\n' ∈ text)
  let double := longestRun '"' 0 0 text
  let single := longestRun '\'' 0 0 text
  let basic := ['"'] ++ escapeBasic text ++ ['"']
  let longBasic := longOpening ['"', '"', '"'] text ++ escapeLong 0 text ++ ['"', '"', '"']
  if !escapes && !backslash && !lineBreak && double == 0 then basic
  else if !escapes && !lineBreak && single == 0 then ['\''] ++ text ++ ['\'']
  else if !escapes && !backslash && double ≤ 2 then longBasic
  else if !escapes && single ≤ 2 then
    longOpening ['\'', '\'', '\''] text ++ text ++ ['\'', '\'', '\'']
  else if lineBreak then longBasic
  else basic

end GlslFormula.Toml
