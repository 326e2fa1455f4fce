import GlslFormula.Proofs.Grammar
import GlslFormula.Token.Scanner

namespace GlslFormula

/-- A gap holds only spaces and tabs. -/
def IsGap (gap : List Char) : Prop := ∀ c ∈ gap, c = ' ' ∨ c = '\t'

def IsDigits (digits : List Char) : Prop := ∀ c ∈ digits, c.isDigit = true

theorem isDigits_toString (number : Nat) : IsDigits (toString number).toList := by
  intro c member
  rw [Nat.toString_eq_repr, Nat.toList_repr] at member
  exact Nat.isDigit_of_mem_toDigits (by decide) (by decide) member

/-- An integer is a row of digits, with a minus sign before it or not. -/
def IsInteger (text : List Char) : Prop :=
  ∃ sign digits, text = sign ++ digits ∧ (sign = [] ∨ sign = ['-']) ∧ digits ≠ [] ∧
    IsDigits digits

/-- A decimal is an integer with a point and any number of digits behind it. -/
def IsDecimal (text : List Char) : Prop :=
  ∃ whole digits, text = whole ++ '.' :: digits ∧ IsInteger whole ∧ IsDigits digits

def IsIdentifier (text : List Char) : Prop :=
  ∃ first rest, text = first :: rest ∧ first.isAlpha = true ∧
    ∀ c ∈ rest, c.isAlpha = true ∨ c.isDigit = true ∨ c = '_'

theorem mem_of_isIdentifier {text : List Char} (isIdentifier : IsIdentifier text) {c : Char}
    (member : c ∈ text) : c.isAlpha = true ∨ c.isDigit = true ∨ c = '_' := by
  obtain ⟨first, rest, rfl, isAlpha, isRest⟩ := isIdentifier
  rcases List.mem_cons.mp member with rfl | later
  · exact .inl isAlpha
  · exact isRest c later

/-- A well-formed lexeme has a text of its kind. -/
def Lexeme.WellFormed (lexeme : Lexeme) : Prop :=
  match lexeme.kind with
  | .number => IsInteger lexeme.text.toList ∨ IsDecimal lexeme.text.toList
  | .symbol | .functionName => IsIdentifier lexeme.text.toList
  | .operator => ∃ operator : Operator, operator.symbol = lexeme.text
  | .implicitMultiply => lexeme.text = ""
  | .parenthesisOpen | .functionArgsStart => lexeme.text = "("
  | .parenthesisClose | .functionArgsEnd => lexeme.text = ")"
  | .argSeparator => lexeme.text = ","

/-- The name of a function touches its bracket, a multiplication without a sign stands before a
name or a group, and a gap parts a symbol from such a factor. -/
structure Lexeme.Precedes (last : Lexeme) (gap : List Char) (next : Lexeme)
    (nextGap : List Char) : Prop where
  touches : last.kind = .functionName → gap = []
  factor : last.kind = .implicitMultiply →
    next.kind ∈ [TokenKind.symbol, .functionName, .parenthesisOpen]
  parted : last.kind = .symbol → next.kind = .implicitMultiply → gap ++ nextGap ≠ []

/-- A layout starts with a gap, and each lexeme has a gap behind it. -/
inductive Layout where
  | start (gap : List Char)
  | put (before : Layout) (lexeme : Lexeme) (gap : List Char)

namespace Layout

def lexemes : Layout → List Lexeme
  | .start _ => []
  | .put before lexeme _ => before.lexemes ++ [lexeme]

def source : Layout → List Char
  | .start gap => gap
  | .put before lexeme gap => before.source ++ lexeme.text.toList ++ gap

/-- These are the tokens with the latest one first. A multiplication without a sign stands where
the next token starts. -/
def emitted : Layout → List Token
  | .start _ => []
  | .put before lexeme gap =>
      let index := before.source.length
      let span := if lexeme.kind = .implicitMultiply then .point (index + gap.length)
        else ⟨index, index + lexeme.text.length⟩
      ⟨lexeme.kind, lexeme.text, span⟩ :: before.emitted

/-- Each lexeme may stand first. -/
def Admits : Layout → Lexeme → List Char → Prop
  | .start _, _, _ => True
  | .put _ last gap, next, nextGap => last.Precedes gap next nextGap

/-- The gaps are blank, and each lexeme may stand behind the one before it. -/
def Spaced : Layout → Prop
  | .start gap => IsGap gap
  | .put before lexeme gap => before.Spaced ∧ IsGap gap ∧ before.Admits lexeme gap

theorem emitted_lexemes (layout : Layout) :
    layout.emitted.reverse.map Token.lexeme = layout.lexemes := by
  induction layout with
  | start gap => rfl
  | put before lexeme gap inductionHypothesis =>
      rw [emitted, lexemes, List.reverse_cons, List.map_append, inductionHypothesis]
      rfl

/-- A blank goes behind the last lexeme. -/
def blank : Layout → Char → Layout
  | .start gap, c => .start (gap ++ [c])
  | .put before lexeme gap, c => .put before lexeme (gap ++ [c])

@[simp] theorem source_blank (layout : Layout) (c : Char) :
    (layout.blank c).source = layout.source ++ [c] := by
  cases layout <;> simp [blank, source]

@[simp] theorem lexemes_blank (layout : Layout) (c : Char) :
    (layout.blank c).lexemes = layout.lexemes := by
  cases layout <;> rfl

theorem Spaced.blank {layout : Layout} (spaced : layout.Spaced) {c : Char}
    (isBlank : c = ' ' ∨ c = '\t') : (layout.blank c).Spaced := by
  have longer (gap : List Char) (isGap : IsGap gap) : IsGap (gap ++ [c]) := by
    intro d member
    rcases List.mem_append.mp member with inside | last
    · exact isGap d inside
    · rw [List.mem_singleton.mp last]
      exact isBlank
  cases layout with
  | start gap => exact longer gap spaced
  | put before lexeme gap =>
      obtain ⟨earlier, isGap, admitted⟩ := spaced
      refine ⟨earlier, longer gap isGap, ?_⟩
      cases before with
      | start first => trivial
      | put first last lastGap => exact ⟨admitted.touches, admitted.factor, by simp⟩

end Layout

end GlslFormula
