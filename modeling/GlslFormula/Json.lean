namespace GlslFormula

inductive Json where
  | null
  | bool (value : Bool)
  | number (value : Nat)
  | string (value : String)
  | array (items : List Json)
  | object (fields : List (String × Json))

namespace Json

/-- A digit of a four-digit escape. -/
def hexDigit (value : Nat) : Char :=
  if value < 10 then Char.ofNat (48 + value) else Char.ofNat (87 + value)

/-- Quotes, backslashes and control characters are escaped. -/
def escapeChar (c : Char) : String :=
  match c with
  | '"' => "\\\""
  | '\\' => "\\\\"
  | '\n' => "\\n"
  | '\r' => "\\r"
  | '\t' => "\\t"
  | '\x08' => "\\b"
  | '\x0c' => "\\f"
  | _ =>
      if c.toNat < 32 then
        "\\u00" ++ (hexDigit (c.toNat / 16)).toString ++ (hexDigit (c.toNat % 16)).toString
      else c.toString

def quote (text : String) : String :=
  text.foldl (fun quoted c => quoted ++ escapeChar c) "\"" ++ "\""

/-- Each level of nesting is indented by two spaces. -/
def newline (depth : Nat) : String := "\n".pushn ' ' (2 * depth)

mutual

/-- Empty arrays and objects stay on one line. -/
def pretty (depth : Nat) : Json → String
  | .null => "null"
  | .bool true => "true"
  | .bool false => "false"
  | .number value => toString value
  | .string value => quote value
  | .array [] => "[]"
  | .array (item :: rest) =>
      "[" ++ newline (depth + 1) ++ pretty (depth + 1) item ++ prettyItems (depth + 1) rest ++
        newline depth ++ "]"
  | .object [] => "\x7b\x7d"
  | .object ((key, value) :: rest) =>
      "\x7b" ++ newline (depth + 1) ++ quote key ++ ": " ++ pretty (depth + 1) value ++
        prettyFields (depth + 1) rest ++ newline depth ++ "\x7d"

def prettyItems (depth : Nat) : List Json → String
  | [] => ""
  | item :: rest => "," ++ newline depth ++ pretty depth item ++ prettyItems depth rest

def prettyFields (depth : Nat) : List (String × Json) → String
  | [] => ""
  | (key, value) :: rest =>
      "," ++ newline depth ++ quote key ++ ": " ++ pretty depth value ++ prettyFields depth rest

end

/-- The text starts at the left margin and has no line break at the end. -/
def text (value : Json) : String := value.pretty 0

end Json

end GlslFormula
