import GlslFormula.Proofs.Cursor
import GlslFormula.Proofs.ScanStep

namespace GlslFormula.Completion

/-- The candidate is a symbol or a function that starts with the word. -/
def Completes (word : List Char) (candidate : Candidate) : Prop :=
  (∃ name constant, (name, constant) ∈ Shader.symbols ∧ word <+: name.toList ∧
    candidate = ⟨name, name⟩) ∨
  ∃ name target, (name, target) ∈ Shader.functions ∧ word <+: name.toList ∧
    candidate = ⟨name ++ "/" ++ toString target.arity, name ++ "("⟩

/-- All candidates of the word are offered, each of them once. -/
structure Offers (word : List Char) (candidates : List Candidate) : Prop where
  complete : ∀ candidate, candidate ∈ candidates ↔ Completes word candidate
  increasing : candidates.Pairwise fun first second => first.replacement < second.replacement

theorem startsWith_iff (word : List Char) (name : String) :
    startsWith word name = true ↔ word <+: name.toList := List.isPrefixOf_iff_prefix

/-- The names of a formula in the order of their tables. -/
def names : List (String × Candidate) :=
  Shader.symbols.map (fun entry => (entry.1, ofSymbol entry.1)) ++
    Shader.functions.map fun entry => (entry.1, ofFunction entry.1 entry.2)

theorem matching_eq_filter (word : List Char) :
    matching word = (names.filter fun entry => startsWith word entry.1).map Prod.snd := by
  simp only [matching, names, List.filter_append, List.filter_map, List.map_append, List.map_map,
    Function.comp_def]

theorem mem_names_iff (name : String) (candidate : Candidate) :
    (name, candidate) ∈ names ↔
      (∃ constant, (name, constant) ∈ Shader.symbols ∧ candidate = ⟨name, name⟩) ∨
      ∃ target, (name, target) ∈ Shader.functions ∧
        candidate = ⟨name ++ "/" ++ toString target.arity, name ++ "("⟩ := by
  rw [names, List.mem_append, List.mem_map, List.mem_map]
  constructor
  · rintro (⟨⟨symbol, constant⟩, member, same⟩ | ⟨⟨function, target⟩, member, same⟩)
    · obtain ⟨rfl, rfl⟩ := Prod.mk.inj same
      exact .inl ⟨constant, member, rfl⟩
    · obtain ⟨rfl, rfl⟩ := Prod.mk.inj same
      exact .inr ⟨target, member, rfl⟩
  · rintro (⟨constant, member, rfl⟩ | ⟨target, member, rfl⟩)
    · exact .inl ⟨(name, constant), member, rfl⟩
    · exact .inr ⟨(name, target), member, rfl⟩

/-- No two names have the same replacement, not even a symbol and a function. -/
theorem nodup_replacements : (names.map fun entry => entry.2.replacement).Nodup := by
  decide +kernel

theorem nodup_matching (word : List Char) :
    ((matching word).map Candidate.replacement).Nodup := by
  rw [matching_eq_filter, List.map_map]
  exact nodup_replacements.sublist ((List.filter_sublist ..).map _)

theorem byReplacement_perm (candidates : List Candidate) :
    (byReplacement candidates).Perm candidates := List.mergeSort_perm ..

/-- Sorting leaves no ties. -/
theorem byReplacement_increasing {candidates : List Candidate}
    (distinct : (candidates.map Candidate.replacement).Nodup) :
    (byReplacement candidates).Pairwise
      fun first second => first.replacement < second.replacement := by
  have sorted : (byReplacement candidates).Pairwise fun first second =>
      decide (first.replacement ≤ second.replacement) = true := by
    apply List.pairwise_mergeSort
    · intro first second third
      simpa only [decide_eq_true_eq] using String.le_trans
    · intro first second
      simpa only [Bool.or_eq_true, decide_eq_true_eq] using String.le_total ..
  have apart := List.pairwise_map.mp (((byReplacement_perm _).map _).nodup_iff.mpr distinct)
  refine (sorted.and apart).imp fun both => ?_
  obtain ⟨atMost, differ⟩ := both
  rw [decide_eq_true_eq] at atMost
  exact String.not_le.mp fun atLeast => differ (String.le_antisymm atMost atLeast)

/-- Each candidate differs from the one that stayed last, so it stays too. -/
theorem loop_eq_append {last : Candidate} {rest : List Candidate} (kept : List Candidate)
    (increasing : (last :: rest).Pairwise
      fun first second => first.replacement < second.replacement) :
    List.eraseRepsBy.loop (fun first second => first.replacement == second.replacement) last rest
      kept = kept.reverse ++ last :: rest := by
  induction rest generalizing last kept with
  | nil => simp [List.eraseRepsBy.loop]
  | cons next rest inductionHypothesis =>
      obtain ⟨below, increasing⟩ := List.pairwise_cons.mp increasing
      have differ : (last.replacement == next.replacement) = false :=
        beq_false_of_ne (String.ne_of_lt (below next List.mem_cons_self))
      simp [List.eraseRepsBy.loop, differ, inductionHypothesis (last :: kept) increasing]

/-- Candidates in strictly increasing order have no equal neighbours. -/
theorem withoutRepeats_eq_self {candidates : List Candidate}
    (increasing : candidates.Pairwise fun first second => first.replacement < second.replacement) :
    withoutRepeats candidates = candidates := by
  cases candidates with
  | nil => rfl
  | cons first rest => exact loop_eq_append [] increasing

theorem candidatesFor_name {c : Char} {rest : List Char} (notCommand : c ≠ ':') :
    candidatesFor (c :: rest) = byReplacement (matching (c :: rest)) := by
  rw [candidatesFor]
  · exact withoutRepeats_eq_self (byReplacement_increasing (nodup_matching _))
  · exact List.cons_ne_nil c rest
  · intro more same
    exact notCommand (List.cons.inj same).1

/-- A word that is neither empty nor a command is completed by names. -/
theorem offers_candidatesFor {c : Char} {rest : List Char} (notCommand : c ≠ ':') :
    Offers (c :: rest) (candidatesFor (c :: rest)) := by
  rw [candidatesFor_name notCommand]
  constructor
  case complete =>
    intro candidate
    simp only [(byReplacement_perm _).mem_iff, matching_eq_filter, List.mem_map, List.mem_filter,
      startsWith_iff, Prod.exists, exists_eq_right, mem_names_iff, Completes]
    constructor
    · rintro ⟨name, ⟨constant, member, same⟩ | ⟨target, member, same⟩, starts⟩
      · exact .inl ⟨name, constant, member, starts, same⟩
      · exact .inr ⟨name, target, member, starts, same⟩
    · rintro (⟨name, constant, member, starts, same⟩ | ⟨name, target, member, starts, same⟩)
      · exact ⟨name, .inl ⟨constant, member, same⟩, starts⟩
      · exact ⟨name, .inr ⟨target, member, same⟩, starts⟩
  case increasing =>
    exact byReplacement_increasing (nodup_matching _)

theorem isAlpha_of_mem_names : ∀ entry ∈ names, entry.1.toList.head?.all Char.isAlpha := by
  decide +kernel

/-- No name starts with a digit. -/
theorem candidatesFor_digit {c : Char} {rest : List Char} (isDigit : c.isDigit = true) :
    candidatesFor (c :: rest) = [] := by
  have notCommand : c ≠ ':' := by
    rintro rfl
    simp at isDigit
  suffices none : matching (c :: rest) = [] by
    rw [candidatesFor_name notCommand, none, byReplacement, List.mergeSort_nil]
  rw [matching_eq_filter, List.map_eq_nil_iff, List.filter_eq_nil_iff]
  intro entry member starts
  obtain ⟨more, same⟩ := (startsWith_iff ..).mp starts
  have isAlpha := isAlpha_of_mem_names entry member
  rw [← same, List.cons_append, List.head?_cons, Option.all_some,
    ← CharClass.ofChar_eq_letter_iff, (CharClass.ofChar_eq_digit_iff c).mpr isDigit] at isAlpha
  cases isAlpha

theorem candidatesFor_command (rest : List Char) :
    candidatesFor (':' :: rest) =
      (commands.filter fun name => decide (':' :: rest <+: name.toList)).map
        fun name => ⟨name, name⟩ := by
  rw [candidatesFor]
  refine congrArg (List.map ofSymbol) (List.filter_congr fun name _ => ?_)
  rw [Bool.eq_iff_iff, startsWith_iff, decide_eq_true_eq]

/-- A completion offers nothing for the empty word, commands for a word with a colon in front, and
names for each other word. -/
theorem complete_offers (line : String) (position : Nat) (completion : Completion)
    (completed : complete line position = some completion) :
    ∃ before word after, Cursor line position before word after ∧
      completion.start = byteSize before ∧
      (word = [] → completion.candidates = []) ∧
      (word.head? = some ':' → completion.candidates =
        (commands.filter fun name => decide (word <+: name.toList)).map
          fun name => ⟨name, name⟩) ∧
      (word ≠ [] → word.head? ≠ some ':' → Offers word completion.candidates) := by
  obtain ⟨before, word, after, cursor, -, rfl⟩ := cursor_of_complete completed
  refine ⟨before, word, after, cursor, rfl, ?_, ?_, ?_⟩
  · rintro rfl
    rfl
  · intro command
    obtain ⟨rest, rfl⟩ := List.head?_eq_some_iff.mp command
    exact candidatesFor_command rest
  · intro present notCommand
    obtain ⟨c, rest, rfl⟩ := List.exists_cons_of_ne_nil present
    exact offers_candidatesFor fun same => notCommand (congrArg some same)

/-- The word `e` is a symbol, and the function `exp` starts with it. -/
theorem complete_offers_sample :
    complete "2*e" 3 = some ⟨2, candidatesFor ['e']⟩ ∧
      ⟨"e", "e"⟩ ∈ candidatesFor ['e'] ∧ ⟨"exp/1", "exp("⟩ ∈ candidatesFor ['e'] ∧
      complete ":tr" 3 = some ⟨0, [⟨":tree", ":tree"⟩]⟩ := by
  have completed : complete "2*e" 3 = some ⟨2, candidatesFor ['e']⟩ := rfl
  have place : Cursor "2*e" 3 ['2', '*'] ['e'] [] :=
    ⟨rfl, rfl, by simp [isWordChar], by simp [isWordChar]⟩
  obtain ⟨before, word, after, cursor, -, -, -, offers⟩ := complete_offers "2*e" 3 _ completed
  obtain ⟨-, rfl⟩ := place.unique cursor
  have offers := offers (by decide) (by decide)
  refine ⟨completed, (offers.complete _).mpr ?_, (offers.complete _).mpr ?_, by decide⟩
  · exact .inl ⟨"e", "CMPLX_E", by decide, by decide, rfl⟩
  · exact .inr ⟨"exp", ⟨"cmplxExp", 1⟩, by decide, by decide, rfl⟩

end GlslFormula.Completion
