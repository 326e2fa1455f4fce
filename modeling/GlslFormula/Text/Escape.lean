import GlslFormula.Text.Printable

namespace GlslFormula

/-- The code point in lower-case hexadecimal digits, without leading zeros. -/
def hexText (c : Char) : String := String.ofList (Nat.toDigits 16 c.toNat)

def codePointEscape (c : Char) : String := "\\u\x7b" ++ hexText c ++ "\x7d"

/-- A short escape is used where there is one. -/
def readableChar (c : Char) : String :=
  match c with
  | '\x00' => "\\0"
  | '\t' => "\\t"
  | '\r' => "\\r"
  | '\n' => "\\n"
  | '\\' => "\\\\"
  | '"' => "\\\""
  | _ => if isPrintable c then c.toString else codePointEscape c

/-- The text between double quotes, on one line. -/
def readableQuote (text : String) : String :=
  "\"" ++ String.join (text.toList.map readableChar) ++ "\""

/-- These characters could start a terminal escape sequence or change what is on the screen. -/
def terminalSafeChar (c : Char) : String :=
  match c with
  | '\x07' => "\\x07"
  | '\x08' => "\\x08"
  | '\x0c' => "\\x0c"
  | '\x1b' => "\\x1b"
  | '\x7f' => "\\x7f"
  | _ => if 0x80 ≤ c.toNat ∧ c.toNat ≤ 0x9F then codePointEscape c else c.toString

def terminalSafe (text : String) : String :=
  String.join (text.toList.map terminalSafeChar)

end GlslFormula
