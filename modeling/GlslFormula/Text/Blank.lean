namespace GlslFormula

/-- The white space characters of Unicode. -/
def isBlank (c : Char) : Bool :=
  (9 ≤ c.toNat && c.toNat ≤ 13) || c.toNat == 0x20 || c.toNat == 0x85 || c.toNat == 0xA0 ||
    c.toNat == 0x1680 || (0x2000 ≤ c.toNat && c.toNat ≤ 0x200A) || c.toNat == 0x2028 ||
    c.toNat == 0x2029 || c.toNat == 0x202F || c.toNat == 0x205F || c.toNat == 0x3000

def trimStart (text : List Char) : List Char := text.dropWhile isBlank

def trimEnd (text : List Char) : List Char := (text.reverse.dropWhile isBlank).reverse

/-- Blanks at both ends are removed. -/
def trim (text : List Char) : List Char := trimEnd (trimStart text)

def trimText (text : String) : String := String.ofList (trim text.toList)

def trimTextEnd (text : String) : String := String.ofList (trimEnd text.toList)

/-- The text before the first blank, and the text after it. -/
def splitBlank : List Char → Option (List Char × List Char)
  | [] => none
  | c :: rest =>
      if isBlank c then some ([], rest)
      else (splitBlank rest).map fun parts => (c :: parts.1, parts.2)

end GlslFormula
