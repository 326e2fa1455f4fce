import GlslFormula.Proofs.Reading

namespace GlslFormula

/-- Some accepted formula begins with this text. -/
def BeginsFormula (text : List Char) : Prop :=
  ∃ rest tokens, tokenize (String.ofList (text ++ rest)) = .ok tokens

theorem BeginsFormula.of_append {first second : List Char}
    (begins : BeginsFormula (first ++ second)) : BeginsFormula first := by
  obtain ⟨rest, tokens, accepted⟩ := begins
  rw [List.append_assoc] at accepted
  exact ⟨second ++ rest, tokens, accepted⟩

namespace Scanner

/-- A value that is missing and the brackets that are open complete the formula. -/
def completion (scanner : Scanner) : List Char :=
  (if scanner.phase.isComplete then [] else ['0']) ++ List.replicate scanner.brackets.length ')'

theorem outcome?_closing {scanner : Scanner} (index : Nat)
    (complete : scanner.phase.isComplete = true) :
    ∃ tokens,
      scanner.outcome? index (List.replicate scanner.brackets.length ')') = some tokens := by
  induction opened : scanner.brackets generalizing scanner index with
  | nil =>
      refine ⟨(scanner.ready index).tokens, ?_⟩
      rw [List.length_nil, List.replicate_zero, outcome?,
        (scanner.finish_ok_iff _ index).mpr ⟨complete, opened, rfl⟩]
  | cons bracket outer inductionHypothesis =>
      rw [List.length_cons, List.replicate_succ,
        outcome?_cons (.close rfl complete bracket outer opened)]
      exact inductionHypothesis (index + 1) rfl rfl

/-- From each state the scanner reaches the end of a formula. -/
theorem outcome?_completion (scanner : Scanner) (index : Nat) :
    ∃ tokens, scanner.outcome? index scanner.completion = some tokens := by
  rw [completion]
  cases phase : scanner.phase with
  | expectValue =>
      have begun : scanner.Steps index '0' (scanner.begin index '0' .inInteger) :=
        .begin .inInteger phase rfl
      rw [ScanPhase.isComplete, if_neg (by simp), List.singleton_append, outcome?_cons begun]
      exact outcome?_closing (index + 1) rfl
  | afterSign =>
      have extended : scanner.Steps index '0' (scanner.extend '0' .inInteger) :=
        .extend .inInteger (by rw [phase]; rfl)
      rw [ScanPhase.isComplete, if_neg (by simp), List.singleton_append, outcome?_cons extended]
      exact outcome?_closing (index + 1) rfl
  | inIdentifier | inInteger | inDecimal | afterValue =>
      exact outcome?_closing index (by rw [phase]; rfl)

/-- What was read without an error does not matter for the rest. -/
theorem outcome?_append {scanner last : Scanner} {index : Nat} {first : List Char}
    (consumed : scanner.read index first = (last, none)) (second : List Char) :
    scanner.outcome? index (first ++ second) = last.outcome? (index + first.length) second := by
  induction first generalizing scanner index with
  | nil =>
      cases consumed
      rfl
  | cons c first inductionHypothesis =>
      obtain ⟨next, taken, remaining⟩ := steps_of_read consumed
      rw [List.cons_append, outcome?_cons taken, inductionHypothesis remaining, List.length_cons,
        Nat.add_comm first.length, Nat.add_assoc]

/-- Each text that is read without an error begins a formula. -/
theorem beginsFormula_of_read {scanner : Scanner} {text : List Char}
    (consumed : start.read 0 text = (scanner, none)) : BeginsFormula text := by
  obtain ⟨tokens, completed⟩ := scanner.outcome?_completion (0 + text.length)
  refine ⟨scanner.completion, tokens, ?_⟩
  rw [tokenize_ok_iff, String.toList_ofList, outcome?_append consumed]
  exact completed

/-- No formula goes on with a character that is refused. -/
theorem not_beginsFormula_of_step {scanner : Scanner} {text : List Char} {c : Char}
    {error : ScanError} (consumed : start.read 0 text = (scanner, none))
    (refused : scanner.step (0 + text.length) c = .error error) :
    ¬ BeginsFormula (text ++ [c]) := by
  rintro ⟨rest, tokens, accepted⟩
  rw [tokenize_ok_iff, String.toList_ofList, List.append_assoc, outcome?_append consumed,
    List.singleton_append, outcome?, refused] at accepted
  cases accepted

/-- A step complains about its own character. -/
theorem step_error {scanner : Scanner} {index : Nat} {c : Char} {error : ScanError}
    (refused : scanner.step index c = .error error) :
    error.character = some c ∧ error.index = index := by
  rw [step] at refused
  split at refused
  case h_1 =>
    cases refused
    exact ⟨rfl, rfl⟩
  case h_2 =>
    cases moved : scanner.transition index c with
    | ok next => simp [moved, Except.mapError] at refused
    | error reason =>
        rw [moved] at refused
        cases refused
        exact ⟨rfl, rfl⟩

/-- A run stops before the character that is refused. -/
theorem read_error {scanner stopped : Scanner} {index : Nat} {formula : List Char}
    {error : ScanError} (refused : scanner.read index formula = (stopped, some error)) :
    ∃ text c rest, formula = text ++ c :: rest ∧ scanner.read index text = (stopped, none) ∧
      stopped.step (index + text.length) c = .error error := by
  induction formula generalizing scanner index with
  | nil => cases refused
  | cons c formula inductionHypothesis =>
      rw [read] at refused
      cases taken : scanner.step index c with
      | error complaint =>
          rw [taken] at refused
          cases refused
          exact ⟨[], c, formula, rfl, rfl, taken⟩
      | ok next =>
          rw [taken] at refused
          obtain ⟨text, d, rest, rfl, consumed, stops⟩ := inductionHypothesis refused
          refine ⟨c :: text, d, rest, rfl, ?_, ?_⟩
          · rw [read, taken]
            exact consumed
          · rw [List.length_cons, Nat.add_comm text.length, ← Nat.add_assoc]
            exact stops

theorem finish_error {scanner last : Scanner} {length : Nat} {error : ScanError}
    (refused : scanner.finish length = (last, some error)) :
    error.character = none ∧ error.index = length := by
  obtain ⟨phase, brackets, buffer, bufferStart, emitted⟩ := scanner
  cases phase <;> cases brackets <;> simp [finish] at refused <;> simp [← refused.2]

/-- A refused formula has a character that is refused, or it ends too early. -/
theorem tokenize_error_cases {formula : String} {error : ScanError}
    (refused : tokenize formula = .error error) :
    (∃ scanner text c rest, formula.toList = text ++ c :: rest ∧
        start.read 0 text = (scanner, none) ∧
        scanner.step (0 + text.length) c = .error error) ∨
      ∃ scanner last, start.read 0 formula.toList = (scanner, none) ∧
        scanner.finish formula.length = (last, some error) := by
  rw [tokenize, run] at refused
  cases taken : start.read 0 formula.toList with
  | mk stopped complaint =>
      cases complaint with
      | some complaint =>
          rw [taken] at refused
          cases refused
          obtain ⟨text, c, rest, split, consumed, stops⟩ := read_error taken
          exact .inl ⟨stopped, text, c, rest, split, consumed, stops⟩
      | none =>
          simp only [taken, String.length_toList] at refused
          cases ended : stopped.finish formula.length with
          | mk last complaint =>
              cases complaint with
              | none => simp [ended] at refused
              | some complaint =>
                  rw [ended] at refused
                  cases refused
                  exact .inr ⟨stopped, last, rfl, ended⟩

end Scanner

/-- The first refused character is the first one that begins no formula. -/
theorem isLeast_refused {scanner : Scanner} {text rest : List Char} {c : Char} {error : ScanError}
    (consumed : Scanner.start.read 0 text = (scanner, none))
    (refused : scanner.step (0 + text.length) c = .error error) :
    IsLeast {index | ¬ BeginsFormula ((text ++ c :: rest).take (index + 1))} text.length := by
  constructor
  · have prefixed : (text ++ c :: rest).take (text.length + 1) = text ++ [c] := by
      rw [List.take_append, List.take_of_length_le (Nat.le_succ _), Nat.add_sub_cancel_left,
        List.take_succ_cons, List.take_zero]
    rw [Set.mem_ofPred_eq, prefixed]
    exact Scanner.not_beginsFormula_of_step consumed refused
  · intro index impossible
    by_contra sooner
    apply impossible
    have whole := Scanner.beginsFormula_of_read consumed
    rw [← List.take_append_drop (index + 1) text] at whole
    rw [List.take_append_of_le_length (by omega)]
    exact whole.of_append

/-- The scanner refuses a formula at the first character that begins no formula, or at its end when
more characters are missing. Each text that it reads begins a formula. -/
theorem tokenize_refuses_earliest (formula : String) :
    (∀ error, tokenize formula = .error error →
      error.index ≤ formula.length ∧
      (∀ c, error.character = some c →
        error.index < formula.length ∧ formula.toList[error.index]? = some c ∧
          IsLeast {index | ¬ BeginsFormula (formula.toList.take (index + 1))} error.index) ∧
      (error.character = none →
        error.index = formula.length ∧ BeginsFormula formula.toList)) ∧
    ∀ count scanner, Scanner.start.read 0 (formula.toList.take count) = (scanner, none) →
      BeginsFormula (formula.toList.take count) := by
  constructor
  · intro error refused
    rcases Scanner.tokenize_error_cases refused with
      ⟨scanner, text, c, rest, split, consumed, stops⟩ | ⟨scanner, last, consumed, ended⟩
    · obtain ⟨character, index⟩ := Scanner.step_error stops
      have inside : text.length < formula.length := by
        rw [← String.length_toList, split]
        simp
      rw [character, index, Nat.zero_add, split]
      refine ⟨Nat.le_of_lt inside, ?_, by simp⟩
      rintro d ⟨⟩
      exact ⟨inside, by simp, isLeast_refused consumed stops⟩
    · obtain ⟨character, index⟩ := Scanner.finish_error ended
      rw [character, index]
      exact ⟨Nat.le_refl _, by simp, fun _ => ⟨rfl, Scanner.beginsFormula_of_read consumed⟩⟩
  · intro count scanner consumed
    exact Scanner.beginsFormula_of_read consumed

/-- The bracket closes nothing, and the sign has no digits behind it. -/
theorem tokenize_refuses_earliest_sample :
    tokenize "f(2, x)) + 1" = .error ⟨some ')', 7, .unmatchedClosing⟩ ∧
      IsLeast {index | ¬ BeginsFormula ("f(2, x)) + 1".toList.take (index + 1))} 7 ∧
      tokenize "2 f((-" = .error ⟨none, 6, .danglingSign⟩ ∧
      BeginsFormula "2 f((-".toList ∧ BeginsFormula ("f(2, x)) + 1".toList.take 4) := by
  have unmatched : tokenize "f(2, x)) + 1" = .error ⟨some ')', 7, .unmatchedClosing⟩ := by
    decide +kernel
  have dangling : tokenize "2 f((-" = .error ⟨none, 6, .danglingSign⟩ := by decide +kernel
  obtain ⟨early, reads⟩ := tokenize_refuses_earliest "f(2, x)) + 1"
  obtain ⟨late, -⟩ := tokenize_refuses_earliest "2 f((-"
  have consumed : Scanner.start.read 0 ("f(2, x)) + 1".toList.take 4) =
      ((Scanner.start.read 0 ("f(2, x)) + 1".toList.take 4)).1, none) := by
    decide +kernel
  exact ⟨unmatched, ((early _ unmatched).2.1 ')' rfl).2.2, dangling,
    ((late _ dangling).2.2 rfl).2, reads 4 _ consumed⟩

end GlslFormula
