import GlslFormula.Proofs.Grammar
import GlslFormula.Token.Scanner

namespace GlslFormula

/-- A value may end in these phases. -/
def ScanPhase.isComplete : ScanPhase → Bool
  | .inIdentifier | .inInteger | .inDecimal | .afterValue => true
  | .expectValue | .afterSign => false

/-- The pending text goes on with a character of this class. -/
def ScanPhase.extension : ScanPhase → CharClass → Option ScanPhase
  | .afterSign, .digit => some .inInteger
  | .inInteger, .digit => some .inInteger
  | .inInteger, .dot => some .inDecimal
  | .inDecimal, .digit => some .inDecimal
  | .inIdentifier, .digit => some .inIdentifier
  | .inIdentifier, .letter => some .inIdentifier
  | .inIdentifier, .underscore => some .inIdentifier
  | _, _ => none

/-- A literal or a name begins with a character of this class. -/
def CharClass.beginning : CharClass → Option ScanPhase
  | .digit => some .inInteger
  | .letter => some .inIdentifier
  | .minus => some .afterSign
  | _ => none

/-- These are the characters of a class that has only a few. -/
def CharClass.members : CharClass → List Char
  | .space => [' ', '\t']
  | .underscore => ['_']
  | .dot => ['.']
  | .comma => [',']
  | .minus => ['-']
  | .operator => ['+', '*', '/', '^']
  | .openParen => ['(']
  | .closeParen => [')']
  | .digit | .letter | .other => []

/-- Each character is a digit, a letter, one of the few others or in no class. -/
theorem CharClass.ofChar_spec (c : Char) :
    (ofChar c = .digit ∧ c.isDigit = true) ∨ (ofChar c = .letter ∧ c.isAlpha = true) ∨
      ofChar c = .other ∨ c ∈ (ofChar c).members := by
  by_cases isDigit : c.isDigit = true
  · simp [ofChar, isDigit]
  · by_cases isAlpha : c.isAlpha = true
    · simp [ofChar, isDigit, isAlpha]
    · simp only [ofChar, if_neg isDigit, if_neg isAlpha]
      split <;> simp [members]

theorem CharClass.ofChar_eq_digit_iff (c : Char) : ofChar c = .digit ↔ c.isDigit = true := by
  constructor
  · intro same
    simpa [same, members] using ofChar_spec c
  · intro isDigit
    simp [ofChar, isDigit]

theorem CharClass.ofChar_eq_letter_iff (c : Char) : ofChar c = .letter ↔ c.isAlpha = true := by
  constructor
  · intro same
    simpa [same, members] using ofChar_spec c
  · intro isAlpha
    have notDigit : c.isDigit = false := by
      simp only [Char.isAlpha, Char.isUpper, Char.isLower, Char.isDigit, Bool.or_eq_true,
        Bool.and_eq_true, decide_eq_true_eq, Bool.and_eq_false_iff,
        decide_eq_false_iff_not] at isAlpha ⊢
      grind
    simp [ofChar, isAlpha, notDigit]

/-- A sign is the symbol of an operator. -/
theorem CharClass.exists_symbol_eq {c : Char} (isSign : (ofChar c).isOperator = true) :
    ∃ operator : Operator, operator.symbol = c.toString := by
  have member := ofChar_spec c
  cases same : ofChar c <;> simp [isOperator, same] at isSign <;>
    simp only [same, members, List.mem_cons, List.not_mem_nil, or_false, reduceCtorEq,
      false_and, false_or] at member
  · subst member
    exact ⟨.sub, rfl⟩
  · rcases member with rfl | rfl | rfl | rfl
    · exact ⟨.add, rfl⟩
    · exact ⟨.mul, rfl⟩
    · exact ⟨.div, rfl⟩
    · exact ⟨.pow, rfl⟩

namespace Scanner

/-- The pending text is a token, and the value is complete. -/
def ready (scanner : Scanner) (index : Nat) : Scanner :=
  { scanner.settle index with phase := .afterValue }

/-- The innermost bracket is closed. -/
def leave (scanner : Scanner) (bracket : Bracket) (outer : List Bracket) (index : Nat) : Scanner :=
  { scanner.emit bracket.closeKind ")" (.single index) with
    phase := .afterValue, brackets := outer }

/-- The rules of the scanner. -/
inductive Steps (scanner : Scanner) (index : Nat) (c : Char) : Scanner → Prop where
  | skip (blank : CharClass.ofChar c = .space) (atStart : scanner.phase = .expectValue) :
      Steps scanner index c scanner
  | rest (blank : CharClass.ofChar c = .space) (complete : scanner.phase.isComplete = true) :
      Steps scanner index c (scanner.ready index)
  | extend (phase : ScanPhase)
      (extended : scanner.phase.extension (CharClass.ofChar c) = some phase) :
      Steps scanner index c (scanner.extend c phase)
  | begin (phase : ScanPhase) (atStart : scanner.phase = .expectValue)
      (begun : (CharClass.ofChar c).beginning = some phase) :
      Steps scanner index c (scanner.begin index c phase)
  | factor (letter : CharClass.ofChar c = .letter) (complete : scanner.phase.isComplete = true)
      (notName : scanner.phase ≠ .inIdentifier) :
      Steps scanner index c
        (((scanner.ready index).multiply index).begin index c .inIdentifier)
  | sign (isSign : (CharClass.ofChar c).isOperator = true)
      (complete : scanner.phase.isComplete = true) :
      Steps scanner index c ((scanner.ready index).separate .operator index c)
  | comma (isComma : CharClass.ofChar c = .comma) (complete : scanner.phase.isComplete = true)
      (inside : scanner.brackets.head? = some .arguments) :
      Steps scanner index c ((scanner.ready index).separate .argSeparator index c)
  | group (isOpen : CharClass.ofChar c = .openParen) (atStart : scanner.phase = .expectValue) :
      Steps scanner index c (scanner.openBracket .group index)
  | call (isOpen : CharClass.ofChar c = .openParen) (named : scanner.phase = .inIdentifier) :
      Steps scanner index c ((scanner.flush .functionName index).openBracket .arguments index)
  | product (isOpen : CharClass.ofChar c = .openParen)
      (complete : scanner.phase.isComplete = true) (notName : scanner.phase ≠ .inIdentifier) :
      Steps scanner index c (((scanner.ready index).multiply index).openBracket .group index)
  | close (isClose : CharClass.ofChar c = .closeParen)
      (complete : scanner.phase.isComplete = true) (bracket : Bracket) (outer : List Bracket)
      (opened : scanner.brackets = bracket :: outer) :
      Steps scanner index c ((scanner.ready index).leave bracket outer index)

@[simp] theorem settle_brackets (scanner : Scanner) (index : Nat) :
    (scanner.settle index).brackets = scanner.brackets := by
  rw [settle]
  split <;> rfl

@[simp] theorem ready_brackets (scanner : Scanner) (index : Nat) :
    (scanner.ready index).brackets = scanner.brackets := settle_brackets scanner index

theorem ready_of_afterValue {scanner : Scanner} (index : Nat)
    (after : scanner.phase = .afterValue) : scanner.ready index = scanner := by
  obtain ⟨phase, brackets, buffer, bufferStart, emitted⟩ := scanner
  obtain rfl : phase = .afterValue := after
  rfl

theorem step_of_transition {scanner next : Scanner} {index : Nat} {c : Char}
    (allowed : scanner.bracketComplaint? (CharClass.ofChar c) = none)
    (taken : scanner.transition index c = .ok next) : scanner.step index c = .ok next := by
  rw [step, allowed, taken]
  rfl

/-- Each rule is a step. -/
theorem step_of_steps {scanner next : Scanner} {index : Nat} {c : Char}
    (steps : scanner.Steps index c next) : scanner.step index c = .ok next := by
  obtain ⟨phase, brackets, buffer, bufferStart, emitted⟩ := scanner
  cases steps with
  | skip blank atStart =>
      subst atStart
      apply step_of_transition <;> simp [bracketComplaint?, transition, blank]
  | rest blank complete =>
      apply step_of_transition
      · simp [bracketComplaint?, blank]
      · cases phase <;> simp [ScanPhase.isComplete] at complete <;>
          simp [transition, blank, ready]
  | extend next extended =>
      apply step_of_transition
      · cases phase <;> cases same : CharClass.ofChar c <;>
          simp [ScanPhase.extension, same] at extended <;> simp [bracketComplaint?]
      · cases phase <;> cases same : CharClass.ofChar c <;>
          simp [ScanPhase.extension, same] at extended <;> subst extended <;>
            simp [transition, same]
  | begin next atStart begun =>
      subst atStart
      apply step_of_transition
      · cases same : CharClass.ofChar c <;>
          simp [CharClass.beginning, same] at begun <;> simp [bracketComplaint?]
      · cases same : CharClass.ofChar c <;>
          simp [CharClass.beginning, same] at begun <;> simp [transition, same, begun]
  | factor letter complete notName =>
      apply step_of_transition
      · simp [bracketComplaint?, letter]
      · cases phase <;> simp [ScanPhase.isComplete] at complete notName <;>
          simp [transition, letter, ready, multiply, emit, begin]
  | sign isSign complete =>
      apply step_of_transition
      · cases same : CharClass.ofChar c <;>
          simp [CharClass.isOperator, same] at isSign <;> simp [bracketComplaint?]
      · cases same : CharClass.ofChar c <;> simp [CharClass.isOperator, same] at isSign <;>
          cases phase <;> simp [ScanPhase.isComplete] at complete <;>
            simp [transition, same, ready, separate, emit]
  | comma isComma complete inside =>
      apply step_of_transition
      · simpa [bracketComplaint?, isComma] using inside
      · cases phase <;> simp [ScanPhase.isComplete] at complete <;>
          simp [transition, isComma, ready, separate, emit]
  | group isOpen atStart =>
      subst atStart
      apply step_of_transition <;> simp [bracketComplaint?, transition, isOpen]
  | call isOpen named =>
      subst named
      apply step_of_transition <;> simp [bracketComplaint?, transition, isOpen]
  | product isOpen complete notName =>
      apply step_of_transition
      · simp [bracketComplaint?, isOpen]
      · cases phase <;> simp [ScanPhase.isComplete] at complete notName <;>
          simp [transition, isOpen, ready, multiply, emit, openBracket]
  | close isClose complete bracket outer opened =>
      subst opened
      apply step_of_transition
      · simp [bracketComplaint?, isClose]
      · cases phase <;> simp [ScanPhase.isComplete] at complete <;>
          simp [transition, isClose, ready, closeBracket?, leave, emit, settle, flush]

theorem transition_of_step {scanner next : Scanner} {index : Nat} {c : Char}
    (taken : scanner.step index c = .ok next) :
    scanner.bracketComplaint? (CharClass.ofChar c) = none ∧
      scanner.transition index c = .ok next := by
  rw [step] at taken
  split at taken
  case h_1 => simp at taken
  case h_2 allowed =>
    refine ⟨allowed, ?_⟩
    cases result : scanner.transition index c with
    | error reason => simp [result, Except.mapError] at taken
    | ok reached => simpa [result, Except.mapError] using taken

/-- Each step follows a rule. -/
theorem steps_of_step {scanner next : Scanner} {index : Nat} {c : Char}
    (taken : scanner.step index c = .ok next) : scanner.Steps index c next := by
  obtain ⟨allowed, moved⟩ := transition_of_step taken
  obtain ⟨phase, brackets, buffer, bufferStart, emitted⟩ := scanner
  cases same : CharClass.ofChar c with
  | space =>
      cases phase with
      | expectValue =>
          simp only [transition, same, Except.ok.injEq] at moved
          exact moved ▸ .skip same rfl
      | afterSign => simp [transition, same] at moved
      | _ =>
          simp only [transition, same, Except.ok.injEq] at moved
          exact moved ▸ .rest same rfl
  | digit =>
      cases phase with
      | expectValue =>
          simp only [transition, same, Except.ok.injEq] at moved
          exact moved ▸ .begin .inInteger rfl (by rw [same]; rfl)
      | afterValue => simp [transition, same] at moved
      | _ =>
          simp only [transition, same, Except.ok.injEq, if_true] at moved
          exact moved ▸ .extend _ (by rw [same]; rfl)
  | letter =>
      cases phase with
      | expectValue =>
          simp only [transition, same, Except.ok.injEq] at moved
          exact moved ▸ .begin .inIdentifier rfl (by rw [same]; rfl)
      | afterSign => simp [transition, same] at moved
      | inIdentifier =>
          simp only [transition, same, Except.ok.injEq] at moved
          exact moved ▸ .extend _ (by rw [same]; rfl)
      | _ =>
          simp only [transition, same, Except.ok.injEq] at moved
          exact moved ▸ .factor same rfl (by simp)
  | underscore =>
      cases phase with
      | inIdentifier =>
          simp only [transition, same, Except.ok.injEq] at moved
          exact moved ▸ .extend _ (by rw [same]; rfl)
      | _ => simp [transition, same] at moved
  | dot =>
      cases phase with
      | inInteger =>
          simp only [transition, same, Except.ok.injEq] at moved
          exact moved ▸ .extend _ (by rw [same]; rfl)
      | _ => simp [transition, same] at moved
  | comma =>
      rw [same] at allowed
      have inside : brackets.head? = some .arguments := by
        simpa [bracketComplaint?] using allowed
      cases phase with
      | expectValue => simp [transition, same] at moved
      | afterSign => simp [transition, same] at moved
      | _ =>
          simp only [transition, same, Except.ok.injEq] at moved
          exact moved ▸ .comma same rfl inside
  | minus =>
      cases phase with
      | expectValue =>
          simp only [transition, same, Except.ok.injEq] at moved
          exact moved ▸ .begin .afterSign rfl (by rw [same]; rfl)
      | afterSign => simp [transition, same] at moved
      | _ =>
          simp only [transition, same, Except.ok.injEq] at moved
          exact moved ▸ .sign (by rw [same]; rfl) rfl
  | operator =>
      cases phase with
      | expectValue => simp [transition, same] at moved
      | afterSign => simp [transition, same] at moved
      | _ =>
          simp only [transition, same, Except.ok.injEq] at moved
          exact moved ▸ .sign (by rw [same]; rfl) rfl
  | openParen =>
      cases phase with
      | expectValue =>
          simp only [transition, same, Except.ok.injEq] at moved
          exact moved ▸ .group same rfl
      | afterSign => simp [transition, same] at moved
      | inIdentifier =>
          simp only [transition, same, Except.ok.injEq] at moved
          exact moved ▸ .call same rfl
      | _ =>
          simp only [transition, same, Except.ok.injEq] at moved
          exact moved ▸ .product same rfl (by simp)
  | closeParen =>
      cases brackets with
      | nil => simp [bracketComplaint?, same] at allowed
      | cons bracket outer =>
          cases phase with
          | expectValue => simp [transition, same] at moved
          | afterSign => simp [transition, same] at moved
          | _ =>
              simp only [transition, same, closeBracket?, settle_brackets,
                Except.ok.injEq] at moved
              exact moved ▸ .close same rfl bracket outer rfl
  | other => cases phase <;> simp [transition, same] at moved

/-- A step succeeds exactly when a rule applies. -/
theorem step_ok_iff (scanner next : Scanner) (index : Nat) (c : Char) :
    scanner.step index c = .ok next ↔ scanner.Steps index c next :=
  ⟨steps_of_step, step_of_steps⟩

/-- A run without an error begins with a rule. -/
theorem steps_of_read {scanner last : Scanner} {index : Nat} {c : Char} {rest : List Char}
    (consumed : scanner.read index (c :: rest) = (last, none)) :
    ∃ next, scanner.Steps index c next ∧ next.read (index + 1) rest = (last, none) := by
  rw [read] at consumed
  cases taken : scanner.step index c with
  | error error => simp [taken] at consumed
  | ok next =>
      rw [taken] at consumed
      exact ⟨next, (step_ok_iff ..).mp taken, consumed⟩

end Scanner

end GlslFormula
