namespace GlslFormula

/-- A carriage return before a line feed belongs to the line break. The line is reversed. -/
def dropReturn : List Char → List Char
  | '\r' :: line => line
  | line => line

/-- The characters of the current line are collected in reverse. The last line needs no line
break, and a final line break adds no empty line. -/
def linesFrom (current : List Char) : List Char → List (List Char)
  | [] => if current.isEmpty then [] else [current.reverse]
  | '\n' :: rest => (dropReturn current).reverse :: linesFrom [] rest
  | c :: rest => linesFrom (c :: current) rest

def textLines (text : String) : List String := (linesFrom [] text.toList).map String.ofList

end GlslFormula
