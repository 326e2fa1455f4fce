namespace GlslFormula

/-- There are this many words of 64 bits. -/
def wordCount : Nat := 0x10000000000000000

/-- Half of the signed words of 64 bits are negative. -/
def signedCount : Nat := 0x8000000000000000

/-- There are this many words of 8 bits. -/
def byteCount : Nat := 0x100

def withoutPlus : List Char → List Char
  | '+' :: rest => rest
  | text => text

/-- A word of 8 bits has decimal digits, and a plus sign may stand in front of them. -/
def readByte? (text : String) : Option Nat :=
  let digits := withoutPlus text.toList
  let value := Nat.ofDigitChars 10 digits 0
  if digits ≠ [] ∧ digits.all Char.isDigit ∧ value < byteCount then some value else none

theorem readByte?_toString {value : Nat} (fits : value < byteCount) :
    readByte? (toString value) = some value := by
  have digits : ∀ c ∈ Nat.toDigits 10 value, c.isDigit = true := fun c member =>
    Nat.isDigit_of_mem_toDigits (by decide) (by decide) member
  have unsigned : withoutPlus (Nat.toDigits 10 value) = Nat.toDigits 10 value := by
    rw [withoutPlus.eq_def]
    split
    case h_1 rest same => simp [same] at digits
    case h_2 => rfl
  rw [readByte?, Nat.toString_eq_ofList_toDigits, String.toList_ofList, unsigned,
    Nat.ofDigitChars_ten_toDigits]
  exact if_pos ⟨Nat.toDigits_ne_nil, List.all_eq_true.mpr digits, fits⟩

end GlslFormula
