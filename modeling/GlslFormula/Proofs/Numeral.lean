import GlslFormula.Proofs.Layout
import GlslFormula.Toml.Number

namespace GlslFormula.Toml

/-- The line ends behind its digits. -/
def DigitLine (text : List Char) : Prop :=
  ∃ digits rest, text = digits ++ '\n' :: rest ∧ IsDigits digits

theorem DigitLine.tail {c : Char} {text : List Char} (line : DigitLine (c :: text))
    (isDigit : c.isDigit = true) : DigitLine text := by
  obtain ⟨_ | ⟨d, digits⟩, rest, same, isDigits⟩ := line
  · obtain ⟨rfl, -⟩ := List.cons.inj same
    cases isDigit
  · obtain ⟨-, rfl⟩ := List.cons.inj same
    exact ⟨digits, rest, rfl, fun e member => isDigits e (List.mem_cons_of_mem d member)⟩

/-- Neither a hyphen nor a colon follows. -/
theorem DigitLine.expect?_eq_none {text : List Char} {c : Char} (line : DigitLine text)
    (notDigit : c.isDigit = false) (notBreak : c ≠ '\n') : expect? c text = none := by
  obtain ⟨_ | ⟨d, digits⟩, rest, rfl, isDigits⟩ := line
  · exact if_neg notBreak.symm
  · refine if_neg ?_
    rintro rfl
    rw [isDigits d List.mem_cons_self] at notDigit
    cases notDigit

theorem DigitLine.of_fourDigits? {text rest : List Char} {value : Nat} (line : DigitLine text)
    (found : fourDigits? text = some (value, rest)) : DigitLine rest := by
  unfold fourDigits? at found
  split at found
  case h_1 a b c d after =>
    split at found
    case isTrue digits =>
      obtain ⟨-, rfl⟩ := Prod.mk.inj (Option.some.inj found)
      simp only [List.all_cons, List.all_nil, Bool.and_eq_true] at digits
      exact (((line.tail digits.1).tail digits.2.1).tail digits.2.2.1).tail digits.2.2.2.1
    case isFalse => cases found
  case h_2 => cases found

theorem DigitLine.of_twoDigits? {text rest : List Char} {low high value : Nat}
    (line : DigitLine text) (found : twoDigits? low high text = some (value, rest)) :
    DigitLine rest := by
  unfold twoDigits? at found
  split at found
  case h_1 a b after =>
    split at found
    case isTrue digits =>
      rw [Bool.and_eq_true] at digits
      simp only [Option.ite_none_right_eq_some, Option.some.injEq, Prod.mk.injEq] at found
      obtain ⟨-, -, rfl⟩ := found
      exact (line.tail digits.1).tail digits.2
    case isFalse => cases found
  case h_2 => cases found

/-- A date needs a hyphen and a time needs a colon. -/
theorem DigitLine.readDatetime_eq_none {text : List Char} (line : DigitLine text) :
    readDatetime text = none := by
  have noDate : readDate text = none := by
    rw [readDate]
    cases found : fourDigits? text with
    | none => rfl
    | some year =>
        have after := line.of_fourDigits? found
        simp [after.expect?_eq_none]
  have noTime : readTime text = none := by
    rw [readTime]
    cases found : twoDigits? 0 23 text with
    | none => rfl
    | some hour =>
        have after := line.of_twoDigits? found
        simp [after.expect?_eq_none]
  rw [readDatetime, noDate, noTime]
  rfl

theorem digitRun_append {digits : List Char} (isDigits : IsDigits digits) (rest : List Char) :
    digitRun Char.isDigit (digits ++ '\n' :: rest) = (digits, '\n' :: rest) := by
  induction digits with
  | nil => simp [digitRun]
  | cons d digits inductionHypothesis =>
      have isDigit := isDigits d List.mem_cons_self
      have notUnderscore : d ≠ '_' := by
        rintro rfl
        cases isDigit
      have others := inductionHypothesis fun e member => isDigits e (List.mem_cons_of_mem d member)
      simp [digitRun, isDigit, notUnderscore, others]

theorem isDigits_toDigits (number : Nat) : IsDigits (Nat.toDigits 10 number) :=
  fun _ member => Nat.isDigit_of_mem_toDigits (by decide) (by decide) member

/-- Only zero starts with the digit zero. -/
theorem head_toDigits {number : Nat} (positive : 0 < number) :
    (Nat.toDigits 10 number).head? ≠ some '0' := by
  induction number using Nat.strongRecOn with
  | ind number inductionHypothesis =>
      rw [Nat.toDigits_eq_if (by decide)]
      split
      case isTrue small =>
        have digits : ∀ digit < 10, 0 < digit → [digit.digitChar].head? ≠ some '0' := by decide
        exact digits number small positive
      case isFalse large =>
        rw [List.head?_append_of_ne_nil _ Nat.toDigits_ne_nil]
        exact inductionHypothesis (number / 10) (by omega) (by omega)

theorem toDigits_cases (number : Nat) :
    number = 0 ∨ ∃ d digits, Nat.toDigits 10 number = d :: digits ∧ d.isDigit = true ∧ d ≠ '0' := by
  rcases Nat.eq_zero_or_pos number with zero | positive
  · exact .inl zero
  · have head := head_toDigits positive
    have isDigits := isDigits_toDigits number
    obtain ⟨d, digits, same⟩ := List.exists_cons_of_ne_nil (Nat.toDigits_ne_nil (n := number) (b := 10))
    rw [same] at head isDigits
    exact .inr ⟨d, digits, same, isDigits d List.mem_cons_self, fun zero => head (congrArg some zero)⟩

theorem decimalNumber_toDigits (number : Nat) :
    decimalNumber (Nat.toDigits 10 number) = number := by
  have value := Nat.ofDigitChars_ten_toDigits (n := number)
  rw [Nat.ofDigitChars_eq_foldl] at value
  simpa only [decimalNumber, Nat.mul_comm, show '0'.toNat = 48 from rfl] using value

theorem wholeDigits?_toDigits (number : Nat) (rest : List Char) :
    wholeDigits? (Nat.toDigits 10 number ++ '\n' :: rest) =
      some (Nat.toDigits 10 number, '\n' :: rest) := by
  rcases toDigits_cases number with rfl | ⟨d, digits, same, isDigit, notZero⟩
  · rfl
  · have isDigits := isDigits_toDigits number
    rw [same] at isDigits ⊢
    have others := digitRun_append (fun e member => isDigits e (List.mem_cons_of_mem d member)) rest
    simp [wholeDigits?, digits?, isDigit, notZero, others]

theorem readSign_toDigits (number : Nat) (rest : List Char) :
    readSign (Nat.toDigits 10 number ++ '\n' :: rest) =
      (false, Nat.toDigits 10 number ++ '\n' :: rest) := by
  obtain ⟨d, digits, same⟩ :=
    List.exists_cons_of_ne_nil (Nat.toDigits_ne_nil (n := number) (b := 10))
  have isDigit := isDigits_toDigits number d (by simp [same])
  rw [same, List.cons_append]
  unfold readSign
  split
  case h_1 taken => obtain ⟨rfl, -⟩ := List.cons.inj taken; cases isDigit
  case h_2 taken => obtain ⟨rfl, -⟩ := List.cons.inj taken; cases isDigit
  case h_3 => rfl

theorem integer?_of_lt {number : Nat} (fits : number < signedCount) :
    integer? number = some (.integer number) := by
  have above : -(signedCount : Int) ≤ number := by omega
  have below : (number : Int) < signedCount := Int.ofNat_lt.mpr fits
  rw [integer?, inWord, decide_eq_true above, decide_eq_true below, Bool.and_self, if_pos rfl]

/-- Digits without an exponent and a fraction are an integer. -/
theorem readDecimal_of_wholeDigits? {text whole tail : List Char} {value : Value}
    (unsigned : readSign text = (false, text)) (digits : wholeDigits? text = some (whole, tail))
    (noExponent : readExponent tail = none) (noFraction : readFraction tail = none)
    (fits : integer? (decimalNumber whole) = some value) :
    readDecimal text = some (value, tail) := by
  rw [readDecimal, unsigned]
  simp [digits, noExponent, noFraction, fits]

theorem readDecimal_toDigits {number : Nat} (fits : number < signedCount) (rest : List Char) :
    readDecimal (Nat.toDigits 10 number ++ '\n' :: rest) =
      some (.integer number, '\n' :: rest) := by
  apply readDecimal_of_wholeDigits? (readSign_toDigits ..) (wholeDigits?_toDigits ..)
  · rw [readExponent, if_neg (by decide)]
  · simp [readFraction]
  · rw [decimalNumber_toDigits, integer?_of_lt fits]

/-- The digit zero has a base letter behind it in no decimal. -/
theorem readNumber_of_readDecimal {text : List Char} {result : Value × List Char}
    (line : DigitLine text) (unbased : ∀ c rest, text = '0' :: c :: rest → c = '\n')
    (found : readDecimal text = some result) : readNumber text = some result := by
  unfold readNumber
  rw [line.readDatetime_eq_none]
  simp only
  split
  case h_4 => rw [found]
  all_goals
    rename_i rest
    cases unbased _ rest rfl

/-- A size is read back when it is a signed word. -/
theorem readNumber_toString {size : Nat} (fits : size < signedCount) (rest : List Char) :
    readNumber ((toString size).toList ++ '\n' :: rest) = some (.integer size, '\n' :: rest) := by
  rw [Nat.toString_eq_repr, Nat.toList_repr]
  have line : DigitLine (Nat.toDigits 10 size ++ '\n' :: rest) :=
    ⟨_, rest, rfl, isDigits_toDigits size⟩
  refine readNumber_of_readDecimal line ?_ (readDecimal_toDigits fits rest)
  intro c more same
  rcases toDigits_cases size with rfl | ⟨d, digits, split, -, notZero⟩
  · exact (List.cons.inj (List.cons.inj same).2).1.symm
  · rw [split] at same
    exact absurd (List.cons.inj same).1 notZero

end GlslFormula.Toml
