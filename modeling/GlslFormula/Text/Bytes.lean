namespace GlslFormula

/-- The size of the text in bytes. -/
def byteSize : List Char → Nat
  | [] => 0
  | c :: rest => c.utf8Size + byteSize rest

/-- The text behind its first bytes. There is none when they are too few or when they end inside a
character. -/
def dropBytes? : List Char → Nat → Option (List Char)
  | text, 0 => some text
  | [], _ + 1 => none
  | c :: rest, count + 1 =>
      if c.utf8Size ≤ count + 1 then dropBytes? rest (count + 1 - c.utf8Size) else none

end GlslFormula
