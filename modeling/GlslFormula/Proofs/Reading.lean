import GlslFormula.Proofs.Lockstep
import GlslFormula.Proofs.Spelling

namespace GlslFormula

/-- The pending text of a phase ends before a character of this class. -/
def ScanPhase.endsBefore : ScanPhase → CharClass → Bool
  | .inIdentifier, .letter => false
  | .inIdentifier, .openParen => false
  | _, .space => true
  | _, .letter => true
  | _, .comma => true
  | _, .minus => true
  | _, .operator => true
  | _, .openParen => true
  | _, .closeParen => true
  | _, _ => false

/-- The pending text of a phase ends before the rest of the source. -/
def ScanPhase.Interrupted (phase : ScanPhase) (rest : List Char) : Prop :=
  ∀ c ∈ rest.head?, phase.endsBefore (CharClass.ofChar c) = true

/-- The kind of value that the pending text of a phase becomes. -/
def ScanPhase.valueKind? : ScanPhase → Option TokenKind
  | .inInteger | .inDecimal => some .number
  | .inIdentifier => some .symbol
  | .expectValue | .afterSign | .afterValue => none

namespace Scanner

/-- These are the tokens of the whole formula when this is its rest. -/
def outcome? (scanner : Scanner) (index : Nat) : List Char → Option (List Token)
  | [] =>
      match scanner.finish index with
      | (last, none) => some last.tokens
      | (_, some _) => none
  | c :: rest =>
      match scanner.step index c with
      | .ok next => next.outcome? (index + 1) rest
      | .error _ => none

theorem outcome?_cons {scanner next : Scanner} {index : Nat} {c : Char}
    (taken : scanner.Steps index c next) (rest : List Char) :
    scanner.outcome? index (c :: rest) = next.outcome? (index + 1) rest := by
  rw [outcome?, step_of_steps taken]

theorem finish_ok_iff (scanner last : Scanner) (length : Nat) :
    scanner.finish length = (last, none) ↔
      scanner.phase.isComplete = true ∧ scanner.brackets = [] ∧ last = scanner.ready length := by
  obtain ⟨phase, brackets, buffer, bufferStart, emitted⟩ := scanner
  cases phase <;> cases brackets <;> simp [finish, ScanPhase.isComplete, ready, eq_comm]

/-- The outcome is known when the rest is read without an error. -/
theorem outcome?_eq_some_iff (scanner : Scanner) (index : Nat) (formula : List Char)
    (tokens : List Token) :
    scanner.outcome? index formula = some tokens ↔
      ∃ last, scanner.read index formula = (last, none) ∧ last.phase.isComplete = true ∧
        last.brackets = [] ∧ (last.ready (index + formula.length)).tokens = tokens := by
  induction formula generalizing scanner index with
  | nil =>
      rw [outcome?]
      constructor
      · intro given
        split at given
        case h_2 => simp at given
        case h_1 last ended =>
          obtain ⟨complete, empty, rfl⟩ := (finish_ok_iff scanner last index).mp ended
          exact ⟨scanner, rfl, complete, empty, Option.some.inj given⟩
      · rintro ⟨last, same, complete, empty, rfl⟩
        obtain rfl : scanner = last := congrArg Prod.fst same
        rw [(finish_ok_iff scanner _ index).mpr ⟨complete, empty, rfl⟩]
        rfl
  | cons c rest inductionHypothesis =>
      rw [outcome?, read]
      cases moved : scanner.step index c with
      | error error => simp
      | ok next =>
          simp only [inductionHypothesis, List.length_cons]
          rw [show index + 1 + rest.length = index + (rest.length + 1) by omega]

theorem tokenize_ok_iff (formula : String) (tokens : List Token) :
    tokenize formula = .ok tokens ↔ start.outcome? 0 formula.toList = some tokens := by
  rw [outcome?_eq_some_iff, tokenize, run]
  cases taken : start.read 0 formula.toList with
  | mk last error =>
      cases error with
      | some error => simp
      | none =>
          simp only [Prod.mk.injEq, and_true, exists_eq_left']
          constructor
          · intro accepted
            split at accepted
            case h_2 => simp at accepted
            case h_1 done ended =>
              obtain ⟨complete, empty, rfl⟩ := (finish_ok_iff last done _).mp ended
              exact ⟨complete, empty, by simpa using accepted⟩
          · rintro ⟨complete, empty, rfl⟩
            rw [(finish_ok_iff last _ _).mpr ⟨complete, empty, rfl⟩]
            simp

/-- A pending value counts as complete when the rest ends it. -/
theorem outcome?_ready {scanner : Scanner} {rest : List Char} (index : Nat)
    (complete : scanner.phase.isComplete = true) (ended : scanner.phase.Interrupted rest) :
    scanner.outcome? index rest = (scanner.ready index).outcome? index rest := by
  cases rest with
  | nil =>
      have same : scanner.finish index = (scanner.ready index).finish index := by
        obtain ⟨phase, brackets, buffer, bufferStart, emitted⟩ := scanner
        cases phase <;> simp [ScanPhase.isComplete] at complete <;> rfl
      rw [outcome?, outcome?, same]
  | cons c rest =>
      have complaint : scanner.bracketComplaint? (CharClass.ofChar c) =
          (scanner.ready index).bracketComplaint? (CharClass.ofChar c) := by
        cases CharClass.ofChar c <;> simp [bracketComplaint?]
      have moves : scanner.transition index c = (scanner.ready index).transition index c := by
        have endsBefore := ended c rfl
        obtain ⟨phase, brackets, buffer, bufferStart, emitted⟩ := scanner
        cases phase <;> simp [ScanPhase.isComplete] at complete <;>
          cases isClass : CharClass.ofChar c <;>
            simp [isClass, ScanPhase.endsBefore] at endsBefore <;>
              simp [transition, isClass, ready, settle, flush, emit, separate, multiply,
                openBracket, closeBracket?, begin]
      rw [outcome?, outcome?, step, step, complaint, moves]

/-- A factor without a sign is read like a value behind the multiplication. -/
theorem outcome?_multiply {scanner : Scanner} {c : Char} (index : Nat) (rest : List Char)
    (after : scanner.phase = .afterValue)
    (factor : CharClass.ofChar c = .letter ∨ CharClass.ofChar c = .openParen) :
    scanner.outcome? index (c :: rest) =
      outcome? { scanner.multiply index with phase := .expectValue } index (c :: rest) := by
  have same : scanner.step index c =
      step { scanner.multiply index with phase := .expectValue } index c := by
    rcases factor with isClass | isClass <;>
      simp [step, transition, bracketComplaint?, isClass, after, settle, multiply, emit, begin,
        openBracket]
  rw [outcome?, outcome?, same]

/-- Blanks change nothing before or behind a value. -/
theorem outcome?_gap {scanner : Scanner} {gap : List Char} (index : Nat) (rest : List Char)
    (resting : scanner.phase = .expectValue ∨ scanner.phase = .afterValue) (isGap : IsGap gap) :
    scanner.outcome? index (gap ++ rest) = scanner.outcome? (index + gap.length) rest := by
  induction gap generalizing index with
  | nil => rfl
  | cons c gap inductionHypothesis =>
      have blank : CharClass.ofChar c = .space := by
        rcases isGap c (by simp) with rfl | rfl <;> rfl
      have taken : scanner.Steps index c scanner := by
        rcases resting with atStart | after
        · exact .skip blank atStart
        · have rests : scanner.Steps index c (scanner.ready index) :=
            .rest blank (by rw [after]; rfl)
          rwa [ready_of_afterValue index after] at rests
      have shorter : IsGap gap := fun d member => isGap d (by simp [member])
      rw [List.cons_append, outcome?_cons taken, inductionHypothesis (index + 1) shorter]
      rw [List.length_cons, Nat.add_right_comm, Nat.add_assoc]

/-- The scanner holds a pending text. -/
def hold (scanner : Scanner) (phase : ScanPhase) (text : List Char) (index : Nat) : Scanner :=
  { scanner with phase, buffer := String.ofList text, bufferStart := index }

/-- A literal or a name is read into the buffer. -/
theorem outcome?_spells {scanner : Scanner} {phase : ScanPhase} {text : List Char} (index : Nat)
    (spelled : phase.Spells text) (atStart : scanner.phase = .expectValue) (rest : List Char) :
    scanner.outcome? index (text ++ rest) =
      (scanner.hold phase text index).outcome? (index + text.length) rest := by
  induction spelled generalizing rest with
  | begin c phase begun =>
      rw [List.singleton_append, outcome?_cons (.begin phase atStart begun)]
      simp [hold, begin]
  | extend phase next text c spelled extended inductionHypothesis =>
      rw [List.append_assoc, inductionHypothesis, List.singleton_append,
        outcome?_cons (.extend next extended)]
      simp [hold, extend, Nat.add_assoc]

/-- The scanner stands where the control is. The name of a function is still pending. -/
def At (scanner : Scanner) (index : Nat) (emitted : List Token) : Control → Prop
  | ⟨.expectValue, scopes⟩ =>
      scanner.phase = .expectValue ∧ scanner.brackets.map Bracket.scopeKind = scopes ∧
        scanner.emitted = emitted
  | ⟨.afterValue, scopes⟩ =>
      scanner.phase = .afterValue ∧ scanner.brackets.map Bracket.scopeKind = scopes ∧
        scanner.emitted = emitted
  | ⟨.expectArguments, scopes⟩ =>
      scanner.phase = .inIdentifier ∧
        .call :: scanner.brackets.map Bracket.scopeKind = scopes ∧
        ⟨.functionName, scanner.buffer, ⟨scanner.bufferStart, index⟩⟩ :: scanner.emitted = emitted

/-- The scanner reads the characters before the rest, and stands at the control behind them. -/
def Passes (scanner : Scanner) (index : Nat) (characters rest : List Char) (emitted : List Token)
    (control : Control) : Prop :=
  ∃ next : Scanner, next.At (index + characters.length) emitted control ∧
    scanner.outcome? index (characters ++ rest) =
      next.outcome? (index + characters.length) rest

theorem brackets_of_scopes (bracket : Bracket) {brackets : List Bracket}
    {scopes : List ScopeKind}
    (same : brackets.map Bracket.scopeKind = bracket.scopeKind :: scopes) :
    ∃ outer, brackets = bracket :: outer ∧ outer.map Bracket.scopeKind = scopes := by
  obtain ⟨first, outer, rfl, kind, rest⟩ := List.map_eq_cons_iff.mp same
  refine ⟨outer, ?_, rest⟩
  cases first <;> cases bracket <;> simp [Bracket.scopeKind] at kind ⊢

section Passing

variable {scanner : Scanner} {index : Nat} {emitted : List Token} {scopes : List ScopeKind}
  {gap rest : List Char}

/-- A token of one character is read with the gap behind it. -/
theorem passes_single {next : Scanner} {c : Char} {control : Control}
    (taken : scanner.Steps index c next)
    (resting : next.phase = .expectValue ∨ next.phase = .afterValue) (isGap : IsGap gap)
    (stands : next.At (index + (c :: gap).length) emitted control) :
    scanner.Passes index (c :: gap) rest emitted control := by
  refine ⟨next, stands, ?_⟩
  rw [List.cons_append, outcome?_cons taken, outcome?_gap (index + 1) rest resting isGap,
    List.length_cons, Nat.add_assoc, Nat.add_comm 1]

theorem At.value {phase : ScanPhase} {kind : TokenKind} {text : String}
    (stands : scanner.At index emitted ⟨.expectValue, scopes⟩) (spelled : phase.Spells text.toList)
    (read : phase.valueKind? = some kind) (ended : phase.Interrupted (gap ++ rest))
    (isGap : IsGap gap) :
    scanner.Passes index (text.toList ++ gap) rest
      (⟨kind, text, ⟨index, index + text.length⟩⟩ :: emitted) ⟨.afterValue, scopes⟩ := by
  obtain ⟨atStart, brackets, sameEmitted⟩ := stands
  refine ⟨(scanner.hold phase text.toList index).ready (index + text.length), ?_, ?_⟩
  · cases phase <;> cases read <;>
      simp [At, hold, ready, settle, flush, emit, brackets, sameEmitted]
  · rw [List.append_assoc, outcome?_spells index spelled atStart, String.length_toList,
      outcome?_ready (index + text.length) ?_ ended, outcome?_gap _ _ (.inr rfl) isGap,
      List.length_append, String.length_toList, Nat.add_assoc]
    cases phase <;> cases read <;> rfl

theorem At.name {text : String} (stands : scanner.At index emitted ⟨.expectValue, scopes⟩)
    (spelled : ScanPhase.inIdentifier.Spells text.toList) :
    scanner.Passes index text.toList rest
      (⟨.functionName, text, ⟨index, index + text.length⟩⟩ :: emitted)
      ⟨.expectArguments, .call :: scopes⟩ := by
  obtain ⟨atStart, brackets, sameEmitted⟩ := stands
  refine ⟨scanner.hold .inIdentifier text.toList index, ?_, ?_⟩
  · simp [At, hold, brackets, sameEmitted, String.length_toList]
  · rw [outcome?_spells index spelled atStart]

theorem At.argumentsOpen (stands : scanner.At index emitted ⟨.expectArguments, scopes⟩)
    (isGap : IsGap gap) :
    scanner.Passes index ('(' :: gap) rest (⟨.functionArgsStart, "(", .single index⟩ :: emitted)
      ⟨.expectValue, scopes⟩ := by
  obtain ⟨named, brackets, sameEmitted⟩ := stands
  apply passes_single (.call rfl named) (.inl rfl) isGap
  simp [At, openBracket, flush, emit, Bracket.openKind, Bracket.scopeKind, ← brackets,
    ← sameEmitted]

theorem At.groupOpen (stands : scanner.At index emitted ⟨.expectValue, scopes⟩)
    (isGap : IsGap gap) :
    scanner.Passes index ('(' :: gap) rest (⟨.parenthesisOpen, "(", .single index⟩ :: emitted)
      ⟨.expectValue, .group :: scopes⟩ := by
  obtain ⟨atStart, brackets, sameEmitted⟩ := stands
  apply passes_single (.group rfl atStart) (.inl rfl) isGap
  simp [At, openBracket, emit, Bracket.openKind, Bracket.scopeKind, ← brackets, ← sameEmitted]

theorem At.sign {c : Char} (stands : scanner.At index emitted ⟨.afterValue, scopes⟩)
    (rest : List Char) (isSign : (CharClass.ofChar c).isOperator = true) (isGap : IsGap gap) :
    scanner.Passes index (c :: gap) rest (⟨.operator, c.toString, .single index⟩ :: emitted)
      ⟨.expectValue, scopes⟩ := by
  obtain ⟨after, brackets, sameEmitted⟩ := stands
  apply passes_single (.sign isSign (by rw [after]; rfl)) (.inl rfl) isGap
  simp [At, separate, emit, ready_of_afterValue index after, brackets, sameEmitted]

theorem At.comma (stands : scanner.At index emitted ⟨.afterValue, .call :: scopes⟩)
    (isGap : IsGap gap) :
    scanner.Passes index (',' :: gap) rest (⟨.argSeparator, ",", .single index⟩ :: emitted)
      ⟨.expectValue, .call :: scopes⟩ := by
  obtain ⟨after, brackets, sameEmitted⟩ := stands
  obtain ⟨outer, opened, -⟩ := brackets_of_scopes .arguments brackets
  apply passes_single (.comma rfl (by rw [after]; rfl) (by rw [opened]; rfl)) (.inl rfl) isGap
  simp [At, separate, emit, ready_of_afterValue index after, brackets, sameEmitted]

theorem At.close (bracket : Bracket)
    (stands : scanner.At index emitted ⟨.afterValue, bracket.scopeKind :: scopes⟩)
    (isGap : IsGap gap) :
    scanner.Passes index (')' :: gap) rest (⟨bracket.closeKind, ")", .single index⟩ :: emitted)
      ⟨.afterValue, scopes⟩ := by
  obtain ⟨after, brackets, sameEmitted⟩ := stands
  obtain ⟨outer, opened, around⟩ := brackets_of_scopes bracket brackets
  apply passes_single (.close rfl (by rw [after]; rfl) bracket outer opened) (.inr rfl) isGap
  simp [At, leave, emit, ready_of_afterValue index after, around, sameEmitted]

theorem At.multiply {c : Char} (stands : scanner.At index emitted ⟨.afterValue, scopes⟩)
    (factor : CharClass.ofChar c = .letter ∨ CharClass.ofChar c = .openParen)
    (isGap : IsGap gap) :
    scanner.Passes index gap (c :: rest)
      (⟨.implicitMultiply, "", .point (index + gap.length)⟩ :: emitted)
      ⟨.expectValue, scopes⟩ := by
  obtain ⟨after, brackets, sameEmitted⟩ := stands
  refine ⟨{ scanner.multiply (index + gap.length) with phase := .expectValue }, ?_, ?_⟩
  · exact ⟨rfl, brackets, by rw [← sameEmitted]; rfl⟩
  · rw [outcome?_gap index (c :: rest) (.inr after) isGap,
      outcome?_multiply (index + gap.length) rest after factor]

end Passing

end Scanner

end GlslFormula
