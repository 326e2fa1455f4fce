import GlslFormula.Word

namespace GlslFormula

/-- A span covers the characters from `start` up to `stop`, without `stop`. -/
structure Span where
  start : Nat
  stop : Nat
deriving DecidableEq

namespace Span

/-- This span covers the one character at `index`. -/
def single (index : Nat) : Span := ⟨index, index + 1⟩

/-- This span has no characters and marks a place before `index`. -/
def point (index : Nat) : Span := ⟨index, index⟩

/-- Positions are machine words, so the last word has no character range after it. -/
def single? (index : Nat) : Option Span :=
  if index + 1 < wordCount then some (single index) else none

/-- A reversed span has width zero. -/
def width (span : Span) : Nat := span.stop - span.start

/-- A reversed span is not empty, although its width is zero. -/
def isEmpty (span : Span) : Bool := span.start == span.stop

/-- The result is the smallest range that covers both spans. -/
def merge (first second : Span) : Span :=
  ⟨min first.start second.start, max first.stop second.stop⟩

def text (span : Span) : String :=
  "[" ++ toString span.start ++ ".." ++ toString span.stop ++ ")"

@[simp] theorem width_single (index : Nat) : (single index).width = 1 := by
  simp [single, width]

@[simp] theorem width_point (index : Nat) : (point index).width = 0 := by
  simp [point, width]

@[simp] theorem isEmpty_point (index : Nat) : (point index).isEmpty = true := by
  simp [point, isEmpty]

end Span

end GlslFormula
