import GlslFormula.Proofs.Layout
import GlslFormula.Shader.Table
import Mathlib.Data.List.OfFn

namespace GlslFormula.Shader

/-- A literal is an integer or a decimal. -/
def IsLiteral (text : String) : Prop := IsInteger text.toList ∨ IsDecimal text.toList

def constants : List String := ["z", "I", "CMPLX_PI", "CMPLX_TAU", "CMPLX_E"]

/-- These are the targets of operators and functions. -/
def targets : List Target := (operators ++ functions).map Prod.snd

/-- A target is applied to exactly as many arguments as it takes. -/
inductive Output where
  | literal (text : String) (isLiteral : IsLiteral text)
  | constant (name : String) (listed : name ∈ constants)
  | application (target : Target) (listed : target ∈ targets)
      (arguments : Fin target.arity → Output)

namespace Output

def text : Output → String
  | .literal text _ => text
  | .constant name _ => name
  | .application target _ arguments =>
      target.name ++ "(" ++ ", ".intercalate (List.ofFn fun index => (arguments index).text) ++ ")"

/-- The literals from left to right. -/
def literals : Output → List String
  | .literal text _ => [text]
  | .constant _ _ => []
  | .application _ _ arguments => (List.ofFn fun index => (arguments index).literals).flatten

end Output

def isDelimiter (c : Char) : Bool := c == '(' || c == ',' || c == ')'

/-- A word holds no delimiter. -/
def IsWord (word : List Char) : Prop := ∀ c ∈ word, isDelimiter c = false

/-- A word is over where the text is, or at a delimiter. -/
def Stops (rest : List Char) : Prop := ∀ c ∈ rest.head?, isDelimiter c = true

/-- An output is over where the text is, or where its list goes on or ends. -/
def Ends (rest : List Char) : Prop := ∀ c ∈ rest.head?, c = ',' ∨ c = ')'

theorem Ends.stops {rest : List Char} (ends : Ends rest) : Stops rest := by
  intro c isHead
  rcases ends c isHead with rfl | rfl <;> rfl

theorem takeWhile_word {word rest : List Char} (isWord : IsWord word) (stops : Stops rest) :
    (word ++ rest).takeWhile (fun c => !isDelimiter c) = word := by
  rw [List.takeWhile_append_of_pos (by simpa [IsWord] using isWord)]
  cases rest with
  | nil => simp
  | cons c rest => simp [stops c rfl]

/-- A text has only one first word. -/
theorem split_word {first second before after : List Char} (isWord : IsWord first)
    (isOther : IsWord second) (stops : Stops before) (stopsToo : Stops after)
    (same : first ++ before = second ++ after) : first = second ∧ before = after := by
  have word : first = second := by
    rw [← takeWhile_word isWord stops, same, takeWhile_word isOther stopsToo]
  subst word
  exact ⟨rfl, List.append_cancel_left same⟩

theorem IsWord.append {first second : List Char} (isWord : IsWord first)
    (isOther : IsWord second) : IsWord (first ++ second) := by
  intro c member
  exact (List.mem_append.mp member).elim (isWord c) (isOther c)

theorem isWord_of_digits {digits : List Char} (isDigits : IsDigits digits) : IsWord digits := by
  intro c member
  have digit := isDigits c member
  by_contra delimiter
  simp only [isDelimiter, Bool.not_eq_false, Bool.or_eq_true, beq_iff_eq] at delimiter
  rcases delimiter with (rfl | rfl) | rfl <;> simp at digit

theorem isWord_of_isInteger {text : List Char} (isInteger : IsInteger text) : IsWord text := by
  obtain ⟨sign, digits, rfl, isSign, -, isDigits⟩ := isInteger
  have minus : IsWord sign := by
    rcases isSign with rfl | rfl <;> simp [IsWord, isDelimiter]
  exact minus.append (isWord_of_digits isDigits)

theorem IsLiteral.isWord {text : String} (isLiteral : IsLiteral text) : IsWord text.toList := by
  rcases isLiteral with isInteger | ⟨whole, digits, spelled, isInteger, isDigits⟩
  · exact isWord_of_isInteger isInteger
  · have point : IsWord ['.'] := by simp [IsWord, isDelimiter]
    rw [spelled, ← List.singleton_append]
    exact (isWord_of_isInteger isInteger).append (point.append (isWord_of_digits isDigits))

theorem head_of_isInteger {text : List Char} (isInteger : IsInteger text) :
    ∃ c, text.head? = some c ∧ (c = '-' ∨ c.isDigit = true) := by
  obtain ⟨sign, digits, rfl, rfl | rfl, nonempty, isDigits⟩ := isInteger
  · obtain ⟨c, rest, rfl⟩ := List.exists_cons_of_ne_nil nonempty
    exact ⟨c, rfl, .inr (isDigits c (by simp))⟩
  · exact ⟨'-', rfl, .inl rfl⟩

/-- A literal starts with a minus sign or a digit. -/
theorem IsLiteral.head {text : String} (isLiteral : IsLiteral text) :
    ∃ c, text.toList.head? = some c ∧ (c = '-' ∨ c.isDigit = true) := by
  rcases isLiteral with isInteger | ⟨whole, digits, spelled, isInteger, -⟩
  · exact head_of_isInteger isInteger
  · obtain ⟨c, isHead, first⟩ := head_of_isInteger isInteger
    refine ⟨c, ?_, first⟩
    rw [spelled, List.head?_append, isHead, Option.some_or]

theorem isWord_of_constant {name : String} (listed : name ∈ constants) : IsWord name.toList := by
  have words : ∀ name ∈ constants, (name.toList.all fun c => !isDelimiter c) = true := by decide
  simpa [IsWord] using words name listed

theorem isWord_of_target {target : Target} (listed : target ∈ targets) :
    IsWord target.name.toList := by
  have words : ∀ target ∈ targets, (target.name.toList.all fun c => !isDelimiter c) = true := by
    decide +kernel
  simpa [IsWord] using words target listed

/-- No constant is a literal. -/
theorem not_isLiteral_of_constant {name : String} (listed : name ∈ constants) :
    ¬ IsLiteral name := by
  intro isLiteral
  obtain ⟨c, isHead, first⟩ := isLiteral.head
  have letters : ∀ name ∈ constants,
      (name.toList.head?.all fun c => c != '-' && !c.isDigit) = true := by decide
  have other : c ≠ '-' ∧ c.isDigit = false := by simpa [isHead] using letters name listed
  rcases first with same | isDigit
  · exact other.1 same
  · simp [other.2] at isDigit

/-- The name of a target fixes its operand count. -/
theorem target_eq_of_name {first second : Target} (listed : first ∈ targets)
    (listedToo : second ∈ targets) (same : first.name = second.name) : first = second := by
  have distinct : (targets.map Target.name).Nodup := by decide +kernel
  exact List.inj_on_of_nodup_map distinct listed listedToo same

/-- What follows an argument when these texts are the next arguments. -/
def closing : List String → List Char
  | [] => [')']
  | text :: rest => ',' :: ' ' :: (text.toList ++ closing rest)

/-- What follows an opening bracket when these texts are the arguments. -/
def inside : List String → List Char
  | [] => [')']
  | text :: rest => text.toList ++ closing rest

theorem ends_closing (texts : List String) (rest : List Char) : Ends (closing texts ++ rest) := by
  cases texts <;> simp [closing, Ends]

theorem toList_intercalate (texts : List String) :
    (", ".intercalate texts).toList ++ [')'] = inside texts := by
  cases texts with
  | nil => rfl
  | cons first rest =>
      induction rest generalizing first with
      | nil => simp [inside, closing]
      | cons second rest inductionHypothesis =>
          have tail := inductionHypothesis second
          rw [inside] at tail
          rw [String.intercalate_cons_cons, String.toList_append, List.append_assoc, tail]
          simp [inside, closing]

namespace Output

/-- The text of an application is its name with all its arguments behind it. -/
theorem toList_text_application (target : Target) (listed : target ∈ targets)
    (arguments : Fin target.arity → Output) :
    (application target listed arguments).text.toList =
      target.name.toList ++ '(' :: inside ((List.ofFn arguments).map text) := by
  rw [← toList_intercalate, List.map_ofFn]
  simp [text, Function.comp_def]

/-- Wherever an output ends, no other output can be read in its place. -/
def Unique (output : Output) : Prop :=
  ∀ (other : Output) (before after : List Char), Ends before → Ends after →
    output.text.toList ++ before = other.text.toList ++ after → output = other ∧ before = after

/-- The outputs that follow an argument can be read in only one way. -/
theorem closing_inj {first second : List Output} {before after : List Char}
    (unique : ∀ output ∈ first, output.Unique)
    (same : closing (first.map text) ++ before = closing (second.map text) ++ after) :
    first = second ∧ before = after := by
  induction first generalizing second with
  | nil =>
      cases second with
      | nil => simpa [closing] using same
      | cons other others => simp [closing] at same
  | cons output rest inductionHypothesis =>
      cases second with
      | nil => simp [closing] at same
      | cons other others =>
          simp only [List.map_cons, closing, List.cons_append, List.append_assoc,
            List.cons.injEq, true_and] at same
          obtain ⟨rfl, remaining⟩ := unique output (by simp) other _ _
            (ends_closing _ _) (ends_closing _ _) same
          obtain ⟨rfl, rfl⟩ := inductionHypothesis
            (fun output member => unique output (by simp [member])) remaining
          exact ⟨rfl, rfl⟩

theorem inside_inj {first second : List Output} {before after : List Char}
    (unique : ∀ output ∈ first, output.Unique) (length : first.length = second.length)
    (same : inside (first.map text) ++ before = inside (second.map text) ++ after) :
    first = second ∧ before = after := by
  cases first with
  | nil =>
      obtain rfl := List.eq_nil_of_length_eq_zero length.symm
      simpa [inside] using same
  | cons output rest =>
      obtain ⟨other, others, rfl⟩ := List.exists_cons_of_length_eq_add_one length.symm
      simp only [List.map_cons, inside, List.append_assoc] at same
      obtain ⟨rfl, remaining⟩ := unique output (by simp) other _ _
        (ends_closing _ _) (ends_closing _ _) same
      obtain ⟨rfl, rfl⟩ := closing_inj (fun output member => unique output (by simp [member]))
        remaining
      exact ⟨rfl, rfl⟩

/-- The word that an output starts with. -/
def word : Output → String
  | .literal text _ => text
  | .constant name _ => name
  | .application target _ _ => target.name

/-- The rest of an output is empty or a list in brackets. -/
def remainder : Output → List Char
  | .literal _ _ => []
  | .constant _ _ => []
  | .application _ _ arguments => '(' :: inside ((List.ofFn arguments).map text)

theorem toList_text (output : Output) :
    output.text.toList = output.word.toList ++ output.remainder := by
  cases output with
  | application target listed arguments => exact toList_text_application target listed arguments
  | _ => exact (List.append_nil _).symm

theorem isWord_word (output : Output) : IsWord output.word.toList := by
  cases output with
  | literal text isLiteral => exact isLiteral.isWord
  | constant name listed => exact isWord_of_constant listed
  | application target listed arguments => exact isWord_of_target listed

theorem stops_remainder (output : Output) {rest : List Char} (ends : Ends rest) :
    Stops (output.remainder ++ rest) := by
  cases output with
  | application target listed arguments => simp [remainder, Stops, isDelimiter]
  | _ => exact ends.stops

/-- Two outputs that are read in one place start with the same word. -/
theorem word_eq {output other : Output} {before after : List Char} (ends : Ends before)
    (endsToo : Ends after)
    (same : output.text.toList ++ before = other.text.toList ++ after) :
    output.word = other.word ∧ output.remainder ++ before = other.remainder ++ after := by
  rw [output.toList_text, other.toList_text, List.append_assoc, List.append_assoc] at same
  obtain ⟨word, remaining⟩ := split_word output.isWord_word other.isWord_word
    (output.stops_remainder ends) (other.stops_remainder endsToo) same
  exact ⟨String.toList_injective word, remaining⟩

theorem remainder_eq_nil {output : Output} {rest : List Char}
    (ends : Ends (output.remainder ++ rest)) : output.remainder = [] := by
  cases output with
  | application target listed arguments => simp [remainder, Ends] at ends
  | _ => rfl

theorem eq_of_word {output other : Output} (atom : output.remainder = [])
    (atomToo : other.remainder = []) (same : output.word = other.word) : output = other := by
  cases output with
  | literal text isLiteral =>
      cases other with
      | literal otherText otherLiteral =>
          obtain rfl : text = otherText := same
          rfl
      | constant name listed =>
          obtain rfl : text = name := same
          exact (not_isLiteral_of_constant listed isLiteral).elim
      | application target listed arguments => simp [remainder] at atomToo
  | constant name listed =>
      cases other with
      | literal text isLiteral =>
          obtain rfl : name = text := same
          exact (not_isLiteral_of_constant listed isLiteral).elim
      | constant otherName otherListed =>
          obtain rfl : name = otherName := same
          rfl
      | application target listed arguments => simp [remainder] at atomToo
  | application target listed arguments => simp [remainder] at atom

theorem unique_of_remainder {output : Output} (atom : output.remainder = []) : output.Unique := by
  intro other before after ends endsToo same
  obtain ⟨word, remaining⟩ := word_eq ends endsToo same
  rw [atom, List.nil_append] at remaining
  subst remaining
  have atomToo : other.remainder = [] := remainder_eq_nil ends
  exact ⟨eq_of_word atom atomToo word, by rw [atomToo, List.nil_append]⟩

theorem unique (output : Output) : output.Unique := by
  induction output with
  | literal text isLiteral => exact unique_of_remainder rfl
  | constant name listed => exact unique_of_remainder rfl
  | application target listed arguments inductionHypothesis =>
      intro other before after ends endsToo same
      obtain ⟨word, remaining⟩ := word_eq ends endsToo same
      cases other with
      | application otherTarget otherListed otherArguments =>
          obtain rfl := target_eq_of_name listed otherListed word
          have lists : inside ((List.ofFn arguments).map text) ++ before =
              inside ((List.ofFn otherArguments).map text) ++ after :=
            List.tail_eq_of_cons_eq remaining
          obtain ⟨row, rest⟩ := inside_inj (by simpa [List.mem_ofFn] using inductionHypothesis)
            (by simp) lists
          obtain rfl := List.ofFn_injective row
          exact ⟨rfl, rest⟩
      | _ =>
          -- The other output ends where this one has a bracket.
          obtain rfl : _ = after := remaining
          simp [remainder, Ends] at endsToo

/-- A text is read as one output at most. -/
theorem text_injective : Function.Injective text := by
  intro first second same
  have ends : Ends [] := by simp [Ends]
  exact (first.unique second [] [] ends ends (by rw [same])).1

end Output

end GlslFormula.Shader
