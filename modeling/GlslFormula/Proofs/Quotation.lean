import GlslFormula.Toml.Quoted
import Mathlib

namespace GlslFormula.Toml

/-- The ways to write a character between double quotes. -/
inductive Spells (c : Char) : List Char → Prop where
  | plain (isBasic : isBasicChar c = true) : Spells c [c]
  | short (letter : Char) (decoded : simpleEscape? letter = some c) : Spells c ['\\', letter]
  | code (high low : Char) (decoded : hexChar? ['0', '0', high, low] = some c) :
      Spells c ['\\', 'u', '0', '0', high, low]

theorem hexChar?_hexDigit : ∀ number < 128,
    hexChar? ['0', '0', hexDigit (number / 16), hexDigit (number % 16)] =
      some (Char.ofNat number) := by
  decide +kernel

theorem toNat_lt_of_isControl {c : Char} (control : isControl c = true) : c.toNat < 128 := by
  simp only [isControl, Bool.or_eq_true, Bool.and_eq_true, decide_eq_true_eq, beq_iff_eq]
    at control
  omega

theorem spells_escapeChar (c : Char) : Spells c (escapeChar c) := by
  unfold escapeChar
  split
  case h_8 notBackspace notTab notBreak notFeed notReturn notQuote notBackslash =>
    split
    case isTrue control =>
      apply Spells.code
      rw [hexChar?_hexDigit _ (toNat_lt_of_isControl control), Char.ofNat_toNat]
    case isFalse ordinary =>
      apply Spells.plain
      simpa [isBasicChar, ordinary] using And.intro notQuote notBackslash
  all_goals exact .short _ rfl

/-- A short escape is no code and does not end the line. -/
theorem simpleEscape?_cases {letter c : Char} (decoded : simpleEscape? letter = some c) :
    letter ≠ 'u' ∧ letter ≠ 'U' ∧ letter ≠ '\n' ∧ letter ≠ '\r' ∧ isSpacing letter = false := by
  unfold simpleEscape? at decoded
  split at decoded
  case h_8 => cases decoded
  all_goals decide

theorem endsLine_of_simpleEscape {letter c : Char} (rest : List Char)
    (decoded : simpleEscape? letter = some c) : endsLine (letter :: rest) = false := by
  obtain ⟨-, -, notBreak, notReturn, notSpacing⟩ := simpleEscape?_cases decoded
  rw [endsLine, List.dropWhile_cons, notSpacing]
  simp [notBreak, notReturn]

theorem Spells.basicBody {c : Char} {spelling : List Char} (spells : Spells c spelling)
    (rest : List Char) :
    Toml.basicBody (spelling ++ rest) = Decoded.push c (Toml.basicBody rest) := by
  cases spells with
  | plain isBasic =>
      have notQuote : c ≠ '"' := by rintro rfl; cases isBasic
      have notBackslash : c ≠ '\\' := by rintro rfl; cases isBasic
      simp [Toml.basicBody, isBasic, notBackslash]
  | short letter decoded =>
      obtain ⟨notCode, notLongCode, -⟩ := simpleEscape?_cases decoded
      simp [Toml.basicBody, notCode, notLongCode, decoded]
  | code high low decoded =>
      simp [Toml.basicBody, decoded]

theorem Spells.longBasicBody {c : Char} {spelling : List Char} (spells : Spells c spelling)
    (rest : List Char) :
    Toml.longBasicBody false (spelling ++ rest) =
      Decoded.push c (Toml.longBasicBody false rest) := by
  cases spells with
  | plain isBasic =>
      have notQuote : c ≠ '"' := by rintro rfl; cases isBasic
      have notBackslash : c ≠ '\\' := by rintro rfl; cases isBasic
      have notBreak : c ≠ '\n' := by rintro rfl; cases isBasic
      have notReturn : c ≠ '\r' := by rintro rfl; cases isBasic
      simp [Toml.longBasicBody, isBasic, notQuote, notBackslash, notReturn]
  | short letter decoded =>
      obtain ⟨notCode, notLongCode, -⟩ := simpleEscape?_cases decoded
      simp [Toml.longBasicBody, notCode, notLongCode, decoded, endsLine_of_simpleEscape]
  | code high low decoded =>
      simp [Toml.longBasicBody, decoded]

theorem Spells.head_ne {c : Char} {spelling : List Char} (spells : Spells c spelling) :
    ∃ first more, spelling = first :: more ∧ first ≠ '"' ∧ isControl first = false := by
  cases spells with
  | plain isBasic =>
      refine ⟨c, [], rfl, ?_, ?_⟩
      · rintro rfl
        cases isBasic
      · simp only [isBasicChar, Bool.and_eq_true, Bool.not_eq_true'] at isBasic
        exact isBasic.1.1
  | short letter decoded => exact ⟨_, _, rfl, by decide, by decide⟩
  | code high low decoded => exact ⟨_, _, rfl, by decide, by decide⟩

theorem Decoded.push_some (c : Char) (text rest : List Char) :
    Decoded.push c (some (text, rest)) = some (c :: text, rest) := rfl

theorem basicBody_escapeBasic (text rest : List Char) :
    basicBody (escapeBasic text ++ '"' :: rest) = some (text, rest) := by
  induction text with
  | nil => rw [escapeBasic, List.flatMap_nil, List.nil_append, basicBody]
  | cons c text inductionHypothesis =>
      rw [escapeBasic, List.flatMap_cons, List.append_assoc, (spells_escapeChar c).basicBody,
        ← escapeBasic, inductionHypothesis, Decoded.push_some]

theorem literalBody_append {text : List Char} (literal : ∀ c ∈ text, isLiteralChar c = true)
    (rest : List Char) : literalBody (text ++ '\'' :: rest) = some (text, rest) := by
  induction text with
  | nil => rw [List.nil_append, literalBody]
  | cons c text inductionHypothesis =>
      rw [List.forall_mem_cons] at literal
      have notQuote : c ≠ '\'' := by
        rintro rfl
        cases literal.1
      rw [List.cons_append, literalBody, if_pos literal.1, inductionHypothesis literal.2,
        Decoded.push_some]
      exact notQuote

/-- The reader of a long form. Single and double quotes stand for themselves, and three of them
close the form. Up to two more may stand directly before them. -/
structure LongBody (body : List Char → Decoded) (quote : Char) : Prop where
  single : ∀ rest, ¬ [quote, quote] <+: rest →
    body (quote :: rest) = Decoded.push quote (body rest)
  close : ∀ count ≤ 2, ∀ rest, rest.head? ≠ some quote →
    body (List.replicate count quote ++ quote :: quote :: quote :: rest) =
      some (List.replicate count quote, rest)

theorem longBody_basic : LongBody (longBasicBody false) '"' where
  single rest apart := by
    rw [longBasicBody]
    all_goals
      rintro more rfl
      exact apart ⟨_, rfl⟩
  close count few rest apart := by
    have unquoted (more : List Char) : rest ≠ '"' :: more := by
      rintro rfl
      exact apart rfl
    obtain rfl | rfl | rfl : count = 0 ∨ count = 1 ∨ count = 2 := by omega
    all_goals
      simp only [List.replicate_succ, List.replicate_zero, List.cons_append, List.nil_append]
      rw [longBasicBody]
    all_goals exact fun _ => unquoted _

theorem longBody_literal : LongBody longLiteralBody '\'' where
  single rest apart := by
    rw [longLiteralBody]
    all_goals
      rintro more rfl
      exact apart ⟨_, rfl⟩
  close count few rest apart := by
    have unquoted (more : List Char) : rest ≠ '\'' :: more := by
      rintro rfl
      exact apart rfl
    obtain rfl | rfl | rfl : count = 0 ∨ count = 1 ∨ count = 2 := by omega
    all_goals
      simp only [List.replicate_succ, List.replicate_zero, List.cons_append, List.nil_append]
      rw [longLiteralBody]
    all_goals exact fun _ => unquoted _

/-- What a long form holds. At most two quotes stand for themselves in a row, and the first number
counts those directly before the text. -/
inductive Holds (body : List Char → Decoded) (quote : Char) : Nat → List Char → List Char → Prop where
  | done (quotes : Nat) : Holds body quote quotes [] []
  | quote {quotes : Nat} {text written : List Char} (few : quotes < 2)
      (holds : Holds body quote (quotes + 1) text written) :
      Holds body quote quotes (quote :: text) (quote :: written)
  | other {text written : List Char} (quotes : Nat) (c first : Char) (more : List Char)
      (apart : first ≠ quote)
      (reads : ∀ rest, body (first :: (more ++ rest)) = Decoded.push c (body rest))
      (holds : Holds body quote 0 text written) :
      Holds body quote quotes (c :: text) (first :: (more ++ written))

/-- The reader stops at the closing quotes and not before. -/
theorem Holds.reads {body : List Char → Decoded} {quote : Char} (long : LongBody body quote)
    {quotes : Nat} {text written rest : List Char} (apart : rest.head? ≠ some quote)
    (holds : Holds body quote quotes text written) :
    body (written ++ quote :: quote :: quote :: rest) = some (text, rest) := by
  induction holds with
  | done quotes => exact long.close 0 (by decide) rest apart
  | other quotes c first more different reads holds inductionHypothesis =>
      rw [List.cons_append, List.append_assoc, reads, inductionHypothesis, Decoded.push_some]
  | @quote quotes text written few holds inductionHypothesis =>
      -- Quotes at the end of the text are read together with the closing ones.
      cases holds with
      | done => exact long.close 1 (by decide) rest apart
      | other quotes c first more different reads holds =>
          rw [List.cons_append, long.single, inductionHypothesis, Decoded.push_some]
          simp [different.symm]
      | quote fewer holds =>
          cases holds with
          | done => exact long.close 2 (by decide) rest apart
          | quote fewest holds => omega
          | other quotes c first more different reads holds =>
              rw [List.cons_append, long.single, inductionHypothesis, Decoded.push_some]
              simp [different.symm]

/-- The escapes keep the rule for quotes. -/
theorem holds_escapeLong {quotes : Nat} {text : List Char} (few : quotes ≤ 2) :
    Holds (longBasicBody false) '"' quotes text (escapeLong quotes text) := by
  induction quotes, text using escapeLong.induct with
  | case1 quotes => exact .done quotes
  | case2 quotes text fewer inductionHypothesis =>
      rw [escapeLong, if_pos fewer]
      exact .quote fewer (inductionHypothesis fewer)
  | case3 quotes text many inductionHypothesis =>
      rw [escapeLong, if_neg many]
      exact .other quotes '"' '\\' ['"'] (by decide)
        (Spells.short '"' rfl).longBasicBody (inductionHypothesis (by decide))
  | case4 quotes text inductionHypothesis =>
      rw [escapeLong]
      refine .other quotes '\n' '\n' [] (by decide) (fun rest => ?_) (inductionHypothesis (by decide))
      simp [longBasicBody]
  | case5 quotes c text notQuote notBreak inductionHypothesis =>
      rw [escapeLong]
      · have spells := spells_escapeChar c
        obtain ⟨first, more, same, apart, -⟩ := spells.head_ne
        rw [same] at spells ⊢
        exact .other quotes c first more apart spells.longBasicBody (inductionHypothesis (by decide))
      · exact notQuote
      · exact notBreak

theorem le_longestRun (target : Char) (current longest : Nat) (text : List Char) :
    max current longest ≤ longestRun target current longest text := by
  induction text generalizing current longest with
  | nil => exact Nat.le_refl _
  | cons c text inductionHypothesis =>
      rw [longestRun]
      split
      · have grown := inductionHypothesis (current + 1) longest
        omega
      · have kept := inductionHypothesis 0 (max current longest)
        omega

theorem not_mem_of_longestRun {target : Char} {current longest : Nat} {text : List Char}
    (none : longestRun target current longest text = 0) : target ∉ text := by
  induction text generalizing current longest with
  | nil => exact List.not_mem_nil
  | cons c text inductionHypothesis =>
      rw [longestRun] at none
      split at none
      case isTrue =>
        have run := le_longestRun target (current + 1) longest text
        omega
      case isFalse other =>
        rw [List.mem_cons, not_or]
        exact ⟨Ne.symm other, inductionHypothesis none⟩

theorem longLiteralBody_cons {c : Char} (notQuote : c ≠ '\'') (unescaped : needsEscape c = false)
    (rest : List Char) :
    longLiteralBody (c :: rest) = Decoded.push c (longLiteralBody rest) := by
  by_cases same : c = '\n'
  · rw [same, longLiteralBody]
  · have notReturn : c ≠ '\r' := by
      rintro rfl
      cases unescaped
    have literal : isLiteralChar c = true := by
      simpa [needsEscape, isLiteralChar, same, notQuote] using unescaped
    simp [longLiteralBody, literal, notQuote, notReturn]

/-- A text with short runs of quotes is written without escapes. -/
theorem holds_literal {text : List Char} {current longest : Nat}
    (unescaped : ∀ c ∈ text, needsEscape c = false)
    (few : longestRun '\'' current longest text ≤ 2) :
    Holds longLiteralBody '\'' current text text := by
  induction text generalizing current longest with
  | nil => exact .done current
  | cons c text inductionHypothesis =>
      rw [List.forall_mem_cons] at unescaped
      rw [longestRun] at few
      split at few
      case isTrue same =>
        subst same
        have run := le_longestRun '\'' (current + 1) longest text
        exact .quote (by omega) (inductionHypothesis unescaped.2 few)
      case isFalse notQuote =>
        exact .other current c c [] notQuote (longLiteralBody_cons notQuote unescaped.1)
          (inductionHypothesis unescaped.2 few)

/-- The reader does not take the opening quote for three of them. -/
theorem readQuoted_short {quote : Char} {text : List Char} (apart : ¬ [quote, quote] <+: text) :
    readQuoted (quote :: text) = readShort (quote :: text) := by
  unfold readQuoted
  split
  case h_1 rest same =>
    obtain ⟨rfl, rfl⟩ := List.cons.inj same
    exact absurd ⟨rest, rfl⟩ apart
  case h_2 rest same =>
    obtain ⟨rfl, rfl⟩ := List.cons.inj same
    exact absurd ⟨rest, rfl⟩ apart
  case h_3 => rfl

/-- A line break behind the opening quotes is dropped, and it is there when the text might start
with one. -/
theorem exists_dropFirstBreak (quotes text : List Char) {body : List Char}
    (unbroken : '\n' ∉ text → body.head? ≠ some '\n' ∧ body.head? ≠ some '\r') :
    ∃ opened, longOpening quotes text ++ body = quotes ++ opened ∧
      dropFirstBreak opened = body := by
  rw [longOpening]
  split
  case isTrue => exact ⟨'\n' :: body, by simp, rfl⟩
  case isFalse breakless =>
    obtain ⟨notBreak, notReturn⟩ := unbroken breakless
    refine ⟨body, rfl, ?_⟩
    unfold dropFirstBreak
    split
    · exact absurd rfl notBreak
    · exact absurd rfl notReturn
    · rfl

/-- The first character of an escaped text without line breaks is no control character. -/
theorem head_escapeLong {text : List Char} (rest : List Char) (unbroken : '\n' ∉ text) :
    (escapeLong 0 text ++ '"' :: rest).head? ≠ some '\n' ∧
      (escapeLong 0 text ++ '"' :: rest).head? ≠ some '\r' := by
  unfold escapeLong
  split
  case h_3 => exact absurd List.mem_cons_self unbroken
  case h_4 c text notQuote notBreak =>
    obtain ⟨first, more, same, -, printable⟩ := (spells_escapeChar c).head_ne
    rw [same]
    simp only [List.cons_append, List.head?_cons, ne_eq, Option.some.injEq]
    constructor <;> rintro rfl <;> cases printable
  all_goals simp

section Forms

variable {text rest : List Char}

theorem readQuoted_basic (text : List Char) (apart : rest.head? ≠ some '"') :
    readQuoted (['"'] ++ escapeBasic text ++ ['"'] ++ rest) = some (text, rest) := by
  have single : ¬ ['"', '"'] <+: escapeBasic text ++ '"' :: rest := by
    cases text with
    | nil =>
        rintro ⟨more, same⟩
        obtain rfl := (List.cons.inj same).2
        exact apart rfl
    | cons c text =>
        obtain ⟨first, more, same, notQuote, -⟩ := (spells_escapeChar c).head_ne
        rw [escapeBasic, List.flatMap_cons, same, List.append_assoc, List.cons_append,
          List.cons_prefix_cons]
        exact fun both => notQuote both.1.symm
  rw [List.append_assoc, List.append_assoc, List.singleton_append, List.singleton_append,
    readQuoted_short single]
  exact basicBody_escapeBasic text rest

theorem readQuoted_literal (literal : ∀ c ∈ text, isLiteralChar c = true)
    (apart : rest.head? ≠ some '\'') :
    readQuoted (['\''] ++ text ++ ['\''] ++ rest) = some (text, rest) := by
  have single : ¬ ['\'', '\''] <+: text ++ '\'' :: rest := by
    cases text with
    | nil =>
        rintro ⟨more, same⟩
        obtain rfl := (List.cons.inj same).2
        exact apart rfl
    | cons c text =>
        rw [List.cons_append, List.cons_prefix_cons]
        rintro ⟨rfl, -⟩
        cases literal _ List.mem_cons_self
  rw [List.append_assoc, List.append_assoc, List.singleton_append, List.singleton_append,
    readQuoted_short single]
  exact literalBody_append literal rest

theorem readQuoted_longBasic (text : List Char) (apart : rest.head? ≠ some '"') :
    readQuoted (longOpening ['"', '"', '"'] text ++ escapeLong 0 text ++ ['"', '"', '"'] ++ rest) =
      some (text, rest) := by
  obtain ⟨opened, same, dropped⟩ := exists_dropFirstBreak ['"', '"', '"'] text
    (head_escapeLong ('"' :: '"' :: rest))
  rw [List.append_assoc, List.append_assoc, List.cons_append, List.cons_append,
    List.singleton_append, same]
  show longBasicBody false (dropFirstBreak opened) = _
  rw [dropped]
  exact (holds_escapeLong (by decide)).reads longBody_basic apart

theorem readQuoted_longLiteral (unescaped : ∀ c ∈ text, needsEscape c = false)
    (few : longestRun '\'' 0 0 text ≤ 2) (apart : rest.head? ≠ some '\'') :
    readQuoted (longOpening ['\'', '\'', '\''] text ++ text ++ ['\'', '\'', '\''] ++ rest) =
      some (text, rest) := by
  have head (unbroken : '\n' ∉ text) :
      (text ++ '\'' :: '\'' :: '\'' :: rest).head? ≠ some '\n' ∧
        (text ++ '\'' :: '\'' :: '\'' :: rest).head? ≠ some '\r' := by
    cases text with
    | nil => simp
    | cons c text =>
        simp only [List.cons_append, List.head?_cons, ne_eq, Option.some.injEq]
        constructor
        · rintro rfl
          exact unbroken List.mem_cons_self
        · rintro rfl
          cases unescaped _ List.mem_cons_self
  obtain ⟨opened, same, dropped⟩ := exists_dropFirstBreak ['\'', '\'', '\''] text head
  rw [List.append_assoc, List.append_assoc, List.cons_append, List.cons_append,
    List.singleton_append, same]
  show longLiteralBody (dropFirstBreak opened) = _
  rw [dropped]
  exact (holds_literal unescaped few).reads longBody_literal apart

/-- Each text is read back from its quotation. -/
theorem readQuoted_writeQuoted (text : List Char) (notDouble : rest.head? ≠ some '"')
    (notSingle : rest.head? ≠ some '\'') :
    readQuoted (writeQuoted text ++ rest) = some (text, rest) := by
  have ordinary (none : text.any needsEscape = false) : ∀ c ∈ text, needsEscape c = false := by
    simpa using none
  unfold writeQuoted
  simp only
  split
  case isTrue => exact readQuoted_basic text notDouble
  split
  case isTrue plain =>
    simp only [Bool.and_eq_true, Bool.not_eq_true', decide_eq_false_iff_not, beq_iff_eq] at plain
    obtain ⟨⟨unescaped, unbroken⟩, quoteless⟩ := plain
    have literal : ∀ c ∈ text, isLiteralChar c = true := by
      intro c member
      have notBreak : c ≠ '\n' := fun same => unbroken (same ▸ member)
      have notQuote : c ≠ '\'' := fun same => not_mem_of_longestRun quoteless (same ▸ member)
      simpa [needsEscape, isLiteralChar, notBreak, notQuote] using ordinary unescaped c member
    exact readQuoted_literal literal notSingle
  split
  case isTrue => exact readQuoted_longBasic text notDouble
  split
  case isTrue plain =>
    simp only [Bool.and_eq_true, Bool.not_eq_true', decide_eq_true_eq] at plain
    exact readQuoted_longLiteral (ordinary plain.1) plain.2 notSingle
  split
  case isTrue => exact readQuoted_longBasic text notDouble
  case isFalse => exact readQuoted_basic text notDouble

end Forms

end GlslFormula.Toml
