import GlslFormula.Proofs.Candidates
import GlslFormula.Proofs.Spelling

namespace GlslFormula

/-- Characters without a class are the only ones that may take several bytes. -/
theorem CharClass.utf8Size_eq_one {c : Char} (classed : ofChar c ≠ .other) : c.utf8Size = 1 := by
  rw [Char.utf8Size_eq_one_iff]
  rcases ofChar_spec c with ⟨-, isDigit⟩ | ⟨-, isAlpha⟩ | other | member
  · simp only [Char.isDigit, Bool.and_eq_true, decide_eq_true_eq] at isDigit
    exact UInt32.le_trans isDigit.2 (by decide)
  · simp only [Char.isAlpha, Char.isUpper, Char.isLower, Bool.or_eq_true, Bool.and_eq_true,
      decide_eq_true_eq] at isAlpha
    rcases isAlpha with upper | lower
    · exact UInt32.le_trans upper.2 (by decide)
    · exact UInt32.le_trans lower.2 (by decide)
  · exact absurd other classed
  · have narrow : ∀ charClass : CharClass, ∀ d ∈ charClass.members, d.val ≤ 127 := by
      intro charClass
      cases charClass <;> simp [members]
    exact narrow _ c member

/-- A word breaks off at a character of each other class. -/
theorem CharClass.not_isWordChar {c : Char}
    (apart : ofChar c ∉ [CharClass.digit, .letter, .underscore, .other]) :
    Completion.isWordChar c = false := by
  simp only [List.mem_cons, List.not_mem_nil, or_false, not_or] at apart
  obtain ⟨notDigit, notLetter, notUnderscore, classed⟩ := apart
  have breaks : ∀ charClass : CharClass, charClass ≠ .underscore →
      ∀ d ∈ charClass.members, Completion.isWordChar d = false := by
    intro charClass
    cases charClass <;> simp [members, Completion.isWordChar]
  rcases ofChar_spec c with ⟨same, -⟩ | ⟨same, -⟩ | other | member
  · exact absurd same notDigit
  · exact absurd same notLetter
  · exact absurd other classed
  · exact breaks _ notUnderscore c member

namespace Completion

/-- No word ends here. -/
def Clear (text : List Char) : Prop := ∀ c, text.getLast? = some c → isWordChar c = false

theorem clear_concat {text : List Char} {c : Char} (breaks : isWordChar c = false) :
    Clear (text ++ [c]) := by
  intro d last
  rw [List.getLast?_concat, Option.some.injEq] at last
  rwa [← last]

/-- The word that ends here has digits only. It may be empty. -/
def EndsWithDigits (text : List Char) : Prop :=
  ∃ before digits, text = before ++ digits ∧ Clear before ∧ IsDigits digits

theorem Clear.endsWithDigits {text : List Char} (clear : Clear text) : EndsWithDigits text :=
  ⟨text, [], (List.append_nil text).symm, clear, by simp [IsDigits]⟩

theorem EndsWithDigits.concat {text : List Char} {c : Char} (ends : EndsWithDigits text)
    (isDigit : c.isDigit = true) : EndsWithDigits (text ++ [c]) := by
  obtain ⟨before, digits, rfl, clear, isDigits⟩ := ends
  exact ⟨before, digits ++ [c], List.append_assoc .., clear, isDigits.append_singleton isDigit⟩

end Completion

namespace Scanner

open Completion (Clear EndsWithDigits clear_concat)

/-- The pending name is at the end of the text, and digits may stand directly before it. -/
def Names (scanner : Scanner) (text : List Char) : Prop :=
  ∃ earlier name, text = earlier ++ name ∧ EndsWithDigits earlier ∧ IsIdentifier name ∧
    scanner.buffer = String.ofList name ∧ scanner.bufferStart = earlier.length

/-- This is how the consumed text ends in each phase. -/
def Trails (scanner : Scanner) (text : List Char) : Prop :=
  match scanner.phase with
  | .expectValue | .afterSign | .afterValue => Clear text
  | .inInteger | .inDecimal => EndsWithDigits text
  | .inIdentifier => scanner.Names text

theorem start_trails : start.Trails [] := by
  intro c last
  simp at last

theorem Steps.classed {scanner next : Scanner} {index : Nat} {c : Char}
    (taken : scanner.Steps index c next) : CharClass.ofChar c ≠ .other := by
  intro other
  cases taken with
  | extend phase extended => cases same : scanner.phase <;>
      simp [other, same, ScanPhase.extension] at extended
  | begin phase atStart begun => simp [other, CharClass.beginning] at begun
  | sign isSign complete => simp [other, CharClass.isOperator] at isSign
  | _ => simp_all

section Trails

variable {scanner next : Scanner} {text : List Char} {c : Char}

theorem Trails.clear (trails : scanner.Trails text)
    (between : scanner.phase = .expectValue ∨ scanner.phase = .afterSign) : Clear text := by
  rw [Trails] at trails
  rcases between with same | same <;> rwa [same] at trails

theorem Trails.endsWithDigits (trails : scanner.Trails text)
    (notName : scanner.phase ≠ .inIdentifier) : EndsWithDigits text := by
  rw [Trails] at trails
  split at trails
  case h_4 | h_5 => exact trails
  case h_6 same => exact absurd same notName
  all_goals exact trails.endsWithDigits

theorem Trails.names (trails : scanner.Trails text) (named : scanner.phase = .inIdentifier) :
    scanner.Names text := by
  rwa [Trails, named] at trails

/-- A step to a phase without pending text reads a character that is in no word. -/
theorem trails_of_breaks (breaks : Completion.isWordChar c = false)
    (settled : next.phase = .expectValue ∨ next.phase = .afterSign ∨ next.phase = .afterValue) :
    next.Trails (text ++ [c]) := by
  have clear : Clear (text ++ [c]) := clear_concat breaks
  rw [Trails]
  rcases settled with same | same | same <;> rwa [same]

theorem trails_of_begun (ends : EndsWithDigits text) (isAlpha : c.isAlpha = true) :
    (scanner.begin text.length c .inIdentifier).Trails (text ++ [c]) := by
  refine ⟨text, [c], rfl, ends, ⟨c, [], rfl, isAlpha, by simp⟩, ?_, rfl⟩
  simp [begin]

theorem Trails.extend {phase : ScanPhase} (trails : scanner.Trails text)
    (extended : scanner.phase.extension (CharClass.ofChar c) = some phase) :
    (scanner.extend c phase).Trails (text ++ [c]) := by
  by_cases named : scanner.phase = .inIdentifier
  case pos =>
    obtain ⟨earlier, name, rfl, ends, isIdentifier, buffer, place⟩ := trails.names named
    obtain rfl := (ScanPhase.extension_next extended).2 named
    rw [named] at extended
    have spelled : ScanPhase.inIdentifier.Holds name := isIdentifier
    refine ⟨earlier, name ++ [c], List.append_assoc .., ends, spelled.extend extended, ?_, place⟩
    simp [Scanner.extend, buffer]
  case neg =>
    have ends := trails.endsWithDigits named
    cases same : CharClass.ofChar c <;> cases reached : scanner.phase <;>
      simp [same, reached, ScanPhase.extension] at extended named <;> subst extended
    case dot.inInteger =>
      exact (clear_concat (CharClass.not_isWordChar (by rw [same]; decide))).endsWithDigits
    all_goals exact ends.concat ((CharClass.ofChar_eq_digit_iff c).mp same)

/-- Each step keeps the end of the text in view. -/
theorem Trails.step (trails : scanner.Trails text) (taken : scanner.Steps text.length c next) :
    next.Trails (text ++ [c]) := by
  have breaks (charClass : CharClass) (same : CharClass.ofChar c = charClass)
      (apart : charClass ∉ [CharClass.digit, .letter, .underscore, .other]) :
      Completion.isWordChar c = false := CharClass.not_isWordChar (same ▸ apart)
  cases taken with
  | skip blank atStart => exact trails_of_breaks (breaks _ blank (by decide)) (.inl atStart)
  | rest blank complete =>
      exact trails_of_breaks (breaks _ blank (by decide)) (.inr (.inr rfl))
  | extend phase extended => exact trails.extend extended
  | begin phase atStart begun =>
      have clear := trails.clear (.inl atStart)
      cases same : CharClass.ofChar c <;> simp [same, CharClass.beginning] at begun <;>
        subst begun
      case digit =>
        exact clear.endsWithDigits.concat ((CharClass.ofChar_eq_digit_iff c).mp same)
      case letter =>
        exact trails_of_begun clear.endsWithDigits ((CharClass.ofChar_eq_letter_iff c).mp same)
      case minus => exact trails_of_breaks (breaks _ same (by decide)) (.inr (.inl rfl))
  | factor letter complete notName =>
      exact trails_of_begun (trails.endsWithDigits notName)
        ((CharClass.ofChar_eq_letter_iff c).mp letter)
  | sign isSign complete =>
      have same : CharClass.ofChar c = .operator ∨ CharClass.ofChar c = .minus := by
        cases same : CharClass.ofChar c <;> simp [same, CharClass.isOperator] at isSign ⊢
      refine trails_of_breaks ?_ (.inl rfl)
      rcases same with same | same <;> exact breaks _ same (by decide)
  | comma isComma complete inside =>
      exact trails_of_breaks (breaks _ isComma (by decide)) (.inl rfl)
  | group isOpen atStart => exact trails_of_breaks (breaks _ isOpen (by decide)) (.inl rfl)
  | call isOpen named => exact trails_of_breaks (breaks _ isOpen (by decide)) (.inl rfl)
  | product isOpen complete notName =>
      exact trails_of_breaks (breaks _ isOpen (by decide)) (.inl rfl)
  | close isClose complete bracket outer opened =>
      exact trails_of_breaks (breaks _ isClose (by decide)) (.inr (.inr rfl))

/-- A run keeps the end of the text in view. -/
theorem Trails.read {last : Scanner} {more : List Char} (trails : scanner.Trails text)
    (consumed : scanner.read text.length more = (last, none)) : last.Trails (text ++ more) := by
  induction more generalizing scanner text with
  | nil =>
      cases consumed
      rwa [List.append_nil]
  | cons c more inductionHypothesis =>
      obtain ⟨next, taken, remaining⟩ := steps_of_read consumed
      have whole := inductionHypothesis (trails.step taken) (by simpa using remaining)
      rwa [List.append_assoc, List.singleton_append] at whole

/-- A run reads characters of one byte only. -/
theorem utf8Size_of_read {last : Scanner} {index : Nat}
    (consumed : scanner.read index text = (last, none)) : ∀ d ∈ text, d.utf8Size = 1 := by
  induction text generalizing scanner index with
  | nil => simp
  | cons c text inductionHypothesis =>
      obtain ⟨next, taken, remaining⟩ := steps_of_read consumed
      rw [List.forall_mem_cons]
      exact ⟨CharClass.utf8Size_eq_one taken.classed, inductionHypothesis remaining⟩

end Trails

end Scanner

namespace Completion

/-- The digits before a name belong to its word. -/
theorem isWordChar_of_isDigit {c : Char} (isDigit : c.isDigit = true) : isWordChar c = true := by
  simp [isWordChar, Char.isAlphanum, isDigit]

theorem isWordChar_of_isIdentifier {name : List Char} (isIdentifier : IsIdentifier name) {c : Char}
    (member : c ∈ name) : isWordChar c = true := by
  rcases mem_of_isIdentifier isIdentifier member with isAlpha | isDigit | rfl
  · simp [isWordChar, Char.isAlphanum, isAlpha]
  · exact isWordChar_of_isDigit isDigit
  · decide

theorem offers_of_isIdentifier {name : List Char} (isIdentifier : IsIdentifier name) :
    Offers name (candidatesFor name) := by
  obtain ⟨first, rest, rfl, isAlpha, -⟩ := isIdentifier
  apply offers_candidatesFor
  rintro rfl
  simp at isAlpha

theorem byteSize_eq_length {text : List Char} (narrow : ∀ c ∈ text, c.utf8Size = 1) :
    byteSize text = text.length := by
  induction text with
  | nil => rfl
  | cons c text inductionHypothesis =>
      rw [List.forall_mem_cons] at narrow
      rw [byteSize, narrow.1, inductionHypothesis narrow.2, List.length_cons, Nat.add_comm]

/-- Behind characters of one byte, a word starts where as many bytes as characters were read. -/
theorem complete_of_narrow {line : String} {position : Nat} {before word after : List Char}
    (cursor : Cursor line position before word after) (narrow : ∀ c ∈ before, c.utf8Size = 1) :
    complete line position = some ⟨before.length, candidatesFor word⟩ := by
  rw [cursor.complete_eq, start?_of_narrow fun c last => narrow c (List.mem_of_getLast? last),
    byteSize_eq_length narrow, Option.map_some]

theorem isWordChar_of_digits_name {digits name : List Char}
    (isDigits : ∀ c ∈ digits, c.isDigit = true) (isIdentifier : IsIdentifier name) :
    ∀ c ∈ digits ++ name, isWordChar c = true := by
  intro c member
  rcases List.mem_append.mp member with inside | inside
  · exact isWordChar_of_isDigit (isDigits c inside)
  · exact isWordChar_of_isIdentifier isIdentifier inside

theorem candidatesFor_digits {digits : List Char} (isDigits : ∀ c ∈ digits, c.isDigit = true)
    (nonempty : digits ≠ []) (name : List Char) : candidatesFor (digits ++ name) = [] := by
  obtain ⟨first, more, rfl⟩ := List.exists_cons_of_ne_nil nonempty
  exact candidatesFor_digit (isDigits first List.mem_cons_self)

/-- While the scanner is in a name, a completion starts with the name and offers what completes it,
except where a digit stands directly before the name. There the completion starts earlier and offers
nothing. -/
theorem complete_name_iff (line : String) (position : Nat) (head rest : List Char)
    (scanner : Scanner) (parted : line.toList = head ++ rest) (place : byteSize head = position)
    (consumed : Scanner.start.read 0 head = (scanner, none))
    (named : scanner.phase = .inIdentifier) :
    ∃ earlier completion, head = earlier ++ scanner.buffer.toList ∧
      earlier.length = scanner.bufferStart ∧ head.length = position ∧
      complete line position = some completion ∧
      ((completion.start = scanner.bufferStart ∧
          Offers scanner.buffer.toList completion.candidates) ↔
        ∀ c, earlier.getLast? = some c → c.isDigit = false) ∧
      ((∃ c, earlier.getLast? = some c ∧ c.isDigit = true) →
        completion.start < scanner.bufferStart ∧ completion.candidates = []) := by
  have narrow := Scanner.utf8Size_of_read consumed
  obtain ⟨earlier, name, split, ⟨before, digits, rfl, clear, isDigits⟩, isIdentifier, buffer,
    start⟩ := (Scanner.start_trails.read consumed).names named
  rw [List.nil_append] at split
  subst split
  have cursor : Cursor line position before (digits ++ name) rest := {
    whole := by rw [parted, List.append_assoc before]
    place := by rw [← place, List.append_assoc]
    isWord := isWordChar_of_digits_name isDigits isIdentifier
    stops := clear }
  have completed := complete_of_narrow cursor fun c member => narrow c (by simp [member])
  refine ⟨before ++ digits, _, ?_, start.symm, ?_, completed, ?_⟩
  · rw [buffer, String.toList_ofList]
  · rw [← place, byteSize_eq_length narrow]
  rw [buffer, String.toList_ofList, start]
  rcases List.eq_nil_or_concat' digits with rfl | ⟨others, d, rfl⟩
  case inl =>
    -- The name stands alone, and it is the whole word.
    have apart : ∀ c, before.getLast? = some c → c.isDigit = false := by
      intro c last
      exact Bool.eq_false_iff.mpr fun isDigit =>
        Bool.eq_false_iff.mp (clear c last) (isWordChar_of_isDigit isDigit)
    rw [List.append_nil]
    refine ⟨iff_of_true ⟨rfl, offers_of_isIdentifier isIdentifier⟩ apart, ?_⟩
    rintro ⟨c, last, isDigit⟩
    rw [apart c last] at isDigit
    cases isDigit
  case inr =>
    have isDigit : d.isDigit = true := isDigits d (by simp)
    have last : (before ++ (others ++ [d])).getLast? = some d := by
      rw [← List.append_assoc, List.getLast?_concat]
    have earlier : before.length < (before ++ (others ++ [d])).length := by simp
    have nothing : candidatesFor (others ++ [d] ++ name) = [] :=
      candidatesFor_digits isDigits (by simp) name
    refine ⟨iff_of_false (fun both => earlier.ne both.1) fun apart => ?_, fun _ =>
      ⟨earlier, nothing⟩⟩
    rw [apart d last] at isDigit
    cases isDigit

/-- Two letters of a name stand behind a sign. -/
theorem complete_name_iff_sample :
    complete "2+si" 4 = some ⟨2, candidatesFor ['s', 'i']⟩ ∧
      ⟨"sin/1", "sin("⟩ ∈ candidatesFor ['s', 'i'] := by
  have consumed : Scanner.start.read 0 ['2', '+', 's', 'i'] =
      ((Scanner.start.read 0 ['2', '+', 's', 'i']).1, none) := by rfl
  obtain ⟨earlier, completion, split, length, -, completed, agrees, -⟩ :=
    complete_name_iff "2+si" 4 ['2', '+', 's', 'i'] [] _ rfl rfl consumed rfl
  have found : complete "2+si" 4 = some ⟨2, candidatesFor ['s', 'i']⟩ := rfl
  obtain rfl := Option.some.inj (completed.symm.trans found)
  obtain rfl : earlier = ['2', '+'] := List.append_cancel_right (split.symm.trans rfl)
  have offers := (agrees.mpr (by simp)).2
  exact ⟨found, (offers.complete _).mpr (.inr ⟨"sin", ⟨"cmplxSin", 1⟩, by decide, by decide, rfl⟩)⟩

/-- The scanner starts a name behind the number, and the completion takes both for one word. -/
theorem complete_name_behind_digit :
    (∃ scanner, Scanner.start.read 0 "2s".toList = (scanner, none) ∧
      scanner.phase = .inIdentifier ∧ scanner.buffer = "s" ∧ scanner.bufferStart = 1) ∧
    complete "2s" 2 = some ⟨0, []⟩ ∧ ¬ Offers ['s'] [] := by
  refine ⟨⟨_, rfl, rfl, rfl, rfl⟩, ?_, ?_⟩
  · have found : complete "2s" 2 = some ⟨0, candidatesFor ['2', 's']⟩ := rfl
    rw [found, candidatesFor_digit (by decide)]
  · intro offers
    have sine : Completes ['s'] ⟨"sin/1", "sin("⟩ :=
      .inr ⟨"sin", ⟨"cmplxSin", 1⟩, by decide, by decide, rfl⟩
    exact List.not_mem_nil ((offers.complete _).mpr sine)

end Completion

end GlslFormula
