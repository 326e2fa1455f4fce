import GlslFormula.Proofs.Layout
import GlslFormula.Proofs.ScanStep

namespace GlslFormula

/-- This is what the pending text looks like in each phase. -/
def ScanPhase.Holds : ScanPhase → List Char → Prop
  | .expectValue, text => text = []
  | .afterValue, text => text = []
  | .afterSign, text => text = ['-']
  | .inInteger, text => IsInteger text
  | .inDecimal, text => IsDecimal text
  | .inIdentifier, text => IsIdentifier text

theorem IsDigits.append_singleton {digits : List Char} {c : Char} (isDigits : IsDigits digits)
    (isDigit : c.isDigit = true) : IsDigits (digits ++ [c]) := by
  intro d member
  rcases List.mem_append.mp member with inside | last
  · exact isDigits d inside
  · rwa [List.mem_singleton.mp last]

namespace ScanPhase

theorem holds_singleton {c : Char} {phase : ScanPhase}
    (begun : (CharClass.ofChar c).beginning = some phase) : phase.Holds [c] := by
  cases same : CharClass.ofChar c <;> simp [CharClass.beginning, same] at begun <;> subst begun
  case digit =>
    have isDigit := (CharClass.ofChar_eq_digit_iff c).mp same
    exact ⟨[], [c], rfl, .inl rfl, by simp, by simpa [IsDigits] using isDigit⟩
  case letter =>
    have isAlpha := (CharClass.ofChar_eq_letter_iff c).mp same
    exact ⟨c, [], rfl, isAlpha, by simp⟩
  case minus =>
    have member := CharClass.ofChar_spec c
    simpa [same, CharClass.members, Holds] using member

/-- The pending text keeps its form when it goes on. -/
theorem Holds.extend {phase next : ScanPhase} {text : List Char} {c : Char}
    (holds : phase.Holds text) (extended : phase.extension (CharClass.ofChar c) = some next) :
    next.Holds (text ++ [c]) := by
  cases phase <;> cases same : CharClass.ofChar c <;>
    simp [extension, same] at extended <;> subst extended
  case afterSign.digit =>
    have isDigit := (CharClass.ofChar_eq_digit_iff c).mp same
    refine ⟨['-'], [c], ?_, .inr rfl, by simp, by simpa [IsDigits] using isDigit⟩
    rw [show text = ['-'] from holds]
  case inInteger.digit =>
    have isDigit := (CharClass.ofChar_eq_digit_iff c).mp same
    obtain ⟨sign, digits, rfl, signed, some, isDigits⟩ := holds
    exact ⟨sign, digits ++ [c], by simp, signed, by simp, isDigits.append_singleton isDigit⟩
  case inInteger.dot =>
    have isPoint : c = '.' := by
      simpa [same, CharClass.members] using CharClass.ofChar_spec c
    exact ⟨text, [], by rw [isPoint], holds, by simp [IsDigits]⟩
  case inDecimal.digit =>
    have isDigit := (CharClass.ofChar_eq_digit_iff c).mp same
    obtain ⟨whole, digits, rfl, isInteger, isDigits⟩ := holds
    exact ⟨whole, digits ++ [c], by simp, isInteger, isDigits.append_singleton isDigit⟩
  all_goals
    obtain ⟨first, rest, rfl, isAlpha, others⟩ := holds
    refine ⟨first, rest ++ [c], by simp, isAlpha, ?_⟩
    intro d member
    rcases List.mem_append.mp member with inside | last
    · exact others d inside
    · rw [List.mem_singleton.mp last]
      have spec := CharClass.ofChar_spec c
      simp [same, CharClass.members] at spec
      simp [spec]

theorem Holds.ne_nil {phase : ScanPhase} {text : List Char} (holds : phase.Holds text)
    (started : phase ≠ .expectValue) (pending : phase ≠ .afterValue) : text ≠ [] := by
  rintro rfl
  cases phase with
  | expectValue => exact started rfl
  | afterValue => exact pending rfl
  | afterSign => simp [Holds] at holds
  | inIdentifier =>
      obtain ⟨first, rest, empty, -⟩ := holds
      simp at empty
  | inInteger =>
      obtain ⟨sign, digits, empty, -, some, -⟩ := holds
      exact some (List.append_eq_nil_iff.mp empty.symm).2
  | inDecimal =>
      obtain ⟨whole, digits, empty, -⟩ := holds
      simp at empty

theorem ne_of_extension {phase next : ScanPhase} {charClass : CharClass}
    (extended : phase.extension charClass = some next) :
    phase ≠ .expectValue ∧ phase ≠ .afterValue := by
  cases phase <;> simp [extension] at extended ⊢

theorem extension_next {phase next : ScanPhase} {charClass : CharClass}
    (extended : phase.extension charClass = some next) :
    next ≠ .afterValue ∧ (phase = .inIdentifier → next = .inIdentifier) := by
  cases phase <;> cases charClass <;> simp [extension] at extended <;> subst extended <;> simp

theorem ne_afterValue_of_beginning {charClass : CharClass} {phase : ScanPhase}
    (begun : charClass.beginning = some phase) : phase ≠ .afterValue := by
  intro complete
  cases charClass <;> simp [CharClass.beginning, complete] at begun

/-- A pending text is built one character at a time. -/
inductive Spells : ScanPhase → List Char → Prop where
  | begin (c : Char) (phase : ScanPhase)
      (begun : (CharClass.ofChar c).beginning = some phase) : Spells phase [c]
  | extend (phase next : ScanPhase) (text : List Char) (c : Char) (spelled : Spells phase text)
      (extended : phase.extension (CharClass.ofChar c) = some next) : Spells next (text ++ [c])

theorem Spells.append {phase : ScanPhase} {text : List Char} (spelled : phase.Spells text)
    (more : List Char) (extended : ∀ c ∈ more, phase.extension (CharClass.ofChar c) = some phase) :
    phase.Spells (text ++ more) := by
  induction more generalizing text with
  | nil => simpa using spelled
  | cons c more inductionHypothesis =>
      have longer := Spells.extend phase phase text c spelled (extended c (by simp))
      have whole := inductionHypothesis longer (fun d member => extended d (by simp [member]))
      simpa using whole

theorem spells_integer {text : List Char} (isInteger : IsInteger text) :
    inInteger.Spells text := by
  obtain ⟨sign, digits, rfl, signed, some, isDigits⟩ := isInteger
  obtain ⟨first, rest, rfl⟩ := List.exists_cons_of_ne_nil some
  have classes (c : Char) (member : c ∈ first :: rest) : CharClass.ofChar c = .digit :=
    (CharClass.ofChar_eq_digit_iff c).mpr (isDigits c member)
  have begun : inInteger.Spells (sign ++ [first]) := by
    have isDigit := classes first (by simp)
    rcases signed with rfl | rfl
    · exact .begin first inInteger (by rw [isDigit]; rfl)
    · exact .extend afterSign inInteger ['-'] first (.begin '-' afterSign rfl)
        (by rw [isDigit]; rfl)
  have whole := begun.append rest fun c member => by
    rw [classes c (by simp [member])]
    rfl
  simpa using whole

theorem spells_decimal {text : List Char} (isDecimal : IsDecimal text) :
    inDecimal.Spells text := by
  obtain ⟨whole, digits, rfl, isInteger, isDigits⟩ := isDecimal
  have pointed := Spells.extend inInteger inDecimal whole '.' (spells_integer isInteger) rfl
  have all := pointed.append digits fun c member => by
    rw [(CharClass.ofChar_eq_digit_iff c).mpr (isDigits c member)]
    rfl
  simpa using all

theorem spells_identifier {text : List Char} (isIdentifier : IsIdentifier text) :
    inIdentifier.Spells text := by
  obtain ⟨first, rest, rfl, isAlpha, others⟩ := isIdentifier
  have begun : inIdentifier.Spells [first] :=
    .begin first inIdentifier (by rw [(CharClass.ofChar_eq_letter_iff first).mpr isAlpha]; rfl)
  have whole := begun.append rest fun c member => by
    rcases others c member with isLetter | isDigit | rfl
    · rw [(CharClass.ofChar_eq_letter_iff c).mpr isLetter]
      rfl
    · rw [(CharClass.ofChar_eq_digit_iff c).mpr isDigit]
      rfl
    · rfl
  simpa using whole

end ScanPhase

end GlslFormula
