import GlslFormula.Diagnostic.Render
import GlslFormula.Proofs.Outline
import GlslFormula.Proofs.Report
import GlslFormula.Proofs.ScanRefusal

namespace GlslFormula

/-- A terminal shows nothing of an escape sequence. It goes up to the next `m`. -/
def withoutEscapes : (escaped : Bool) → List Char → List Char
  | _, [] => []
  | true, c :: rest => withoutEscapes (c != 'm') rest
  | false, c :: rest =>
      if c = '\x1b' then withoutEscapes true rest else c :: withoutEscapes false rest

def displayed (text : String) : String := String.ofList (withoutEscapes false text.toList)

/-- The text is seen as `shown`, whatever stands behind it. -/
def Displays (text shown : String) : Prop :=
  ∀ rest, withoutEscapes false (text.toList ++ rest) = shown.toList ++ withoutEscapes false rest

section Displays

variable {text shown first second seen seenToo : String}

theorem Displays.displayed_eq (displays : Displays text shown) : displayed text = shown := by
  have whole := displays []
  rw [List.append_nil, withoutEscapes, List.append_nil] at whole
  rw [displayed, whole, String.ofList_toList]

theorem Displays.append (displays : Displays first seen) (displaysToo : Displays second seenToo) :
    Displays (first ++ second) (seen ++ seenToo) := by
  intro rest
  rw [String.toList_append, List.append_assoc, displays, displaysToo, String.toList_append,
    List.append_assoc]

/-- A text without escape sequences is seen as it is. -/
theorem displays_self (unescaped : '\x1b' ∉ text.toList) : Displays text text := by
  intro rest
  generalize text.toList = characters at unescaped
  induction characters with
  | nil => rfl
  | cons c characters inductionHypothesis =>
      rw [List.mem_cons, not_or] at unescaped
      rw [List.cons_append, withoutEscapes, if_neg (Ne.symm unescaped.1),
        inductionHypothesis unescaped.2, List.cons_append]

theorem withoutEscapes_inside {code : List Char} (unended : 'm' ∉ code) (rest : List Char) :
    withoutEscapes true (code ++ 'm' :: rest) = withoutEscapes false rest := by
  induction code with
  | nil => rfl
  | cons c code inductionHypothesis =>
      rw [List.mem_cons, not_or] at unended
      rw [List.cons_append, withoutEscapes, bne_iff_ne.mpr (Ne.symm unended.1)]
      exact inductionHypothesis unended.2

theorem displays_escape {code : String} (unended : 'm' ∉ code.toList) :
    Displays ("\x1b" ++ code ++ "m") "" := by
  intro rest
  have spelled : ("\x1b" ++ code ++ "m").toList ++ rest =
      '\x1b' :: (code.toList ++ 'm' :: rest) := by
    simp
  rw [spelled, withoutEscapes, if_pos rfl, withoutEscapes_inside unended]
  rfl

/-- Colours are not seen. -/
theorem displays_paint (renderer : Renderer) (colour : Colour)
    (unescaped : '\x1b' ∉ text.toList) : Displays (renderer.paint colour text) text := by
  rw [Renderer.paint]
  split
  case isFalse => exact displays_self unescaped
  case isTrue =>
    -- Two escape sequences stand before the text and two behind it.
    have opened : Displays ("\x1b" ++ "[1" ++ "m" ++ ("\x1b" ++ ("[" ++ colour.code) ++ "m")) "" :=
      (displays_escape (by decide)).append (displays_escape (by cases colour <;> decide))
    have closed : Displays ("\x1b" ++ "[39" ++ "m" ++ ("\x1b" ++ "[0" ++ "m")) "" :=
      (displays_escape (by decide)).append (displays_escape (by decide))
    have whole := (opened.append (displays_self unescaped)).append closed
    rw [String.empty_append, String.append_empty] at whole
    cases colour <;> exact whole

end Displays

/-- A text on one line without escape sequences. -/
structure Plain (text : String) : Prop where
  unbroken : '\n' ∉ text.toList
  unescaped : '\x1b' ∉ text.toList

namespace Plain

variable {first second text : String}

instance : DecidablePred Plain := fun text =>
  decidable_of_iff ('\n' ∉ text.toList ∧ '\x1b' ∉ text.toList)
    ⟨fun both => ⟨both.1, both.2⟩, fun plain => ⟨plain.unbroken, plain.unescaped⟩⟩

theorem of_forall (plain : ∀ c ∈ text.toList, c ≠ '\n' ∧ c ≠ '\x1b') : Plain text where
  unbroken member := (plain _ member).1 rfl
  unescaped member := (plain _ member).2 rfl

theorem append (plain : Plain first) (plainToo : Plain second) : Plain (first ++ second) := by
  constructor <;> rw [String.toList_append, List.mem_append, not_or]
  · exact ⟨plain.unbroken, plainToo.unbroken⟩
  · exact ⟨plain.unescaped, plainToo.unescaped⟩

theorem of_isDigits (isDigits : IsDigits text.toList) : Plain text := by
  apply of_forall
  intro c member
  have isDigit := isDigits c member
  constructor <;> rintro rfl <;> simp at isDigit

theorem of_isIdentifier (isIdentifier : IsIdentifier text.toList) : Plain text := by
  apply of_forall
  intro c member
  rcases mem_of_isIdentifier isIdentifier member with isAlpha | isDigit | rfl
  · constructor <;> rintro rfl <;> simp at isAlpha
  · constructor <;> rintro rfl <;> simp at isDigit
  · decide

end Plain

section Messages

variable {error : ScanError}

theorem ScanReason.plain_message (reason : ScanReason) : Plain reason.message := by
  cases reason with
  | unclosedGroup count => exact (Plain.of_isDigits (isDigits_toString count)).append (by decide)
  | _ => decide +kernel

theorem ScanReason.plain_code (reason : ScanReason) : Plain reason.code := by
  cases reason <;> rw [code] <;> decide

theorem Shader.GenerateError.plain_code (error : GenerateError) : Plain error.code := by
  cases error <;> rw [code] <;> decide

/-- A message quotes no other character than the refused one. -/
theorem ScanError.plain_message
    (quoted : ∀ c, error.character = some c → c ≠ '\n' ∧ c ≠ '\x1b') : Plain error.message := by
  have subject : Plain error.subject := by
    rw [ScanError.subject]
    split
    case h_1 c found =>
      have single : Plain c.toString := Plain.of_forall (by simpa using quoted c found)
      exact (Plain.append (by decide) single).append (by decide)
    case h_2 => decide
  have index := Plain.of_isDigits (isDigits_toString error.index)
  have before : Plain ("unexpected " ++ error.subject ++ " at index ") :=
    (Plain.append (by decide) subject).append (by decide)
  exact ((before.append index).append (by decide)).append error.reason.plain_message

/-- An offence quotes only the name of its token. -/
theorem Token.Offends.plain {token : Token} {behind : List Token} {error : Shader.GenerateError}
    (offends : token.Offends behind error) (wellFormed : token.lexeme.WellFormed) :
    Plain error.message ∧
      ∀ help, Diagnostic.helpFor (.generate error) = some help → Plain help := by
  cases offends with
  | symbol kind unknown =>
      rw [Lexeme.WellFormed, Token.lexeme, kind] at wellFormed
      have name := Plain.of_isIdentifier wellFormed
      refine ⟨(Plain.append (by decide) name).append (by decide), ?_⟩
      rintro help ⟨⟩
      decide
  | function kind unknown =>
      rw [Lexeme.WellFormed, Token.lexeme, kind] at wellFormed
      have name := Plain.of_isIdentifier wellFormed
      refine ⟨(Plain.append (by decide) name).append (by decide), ?_⟩
      simp [Diagnostic.helpFor]
  | arity target kind known wrong =>
      rw [Lexeme.WellFormed, Token.lexeme, kind] at wellFormed
      have name := Plain.of_isIdentifier wellFormed
      have expected := Plain.of_isDigits (isDigits_toString target.arity)
      have found := Plain.of_isDigits (isDigits_toString (Token.argumentCount behind))
      have quoted := (Plain.append (by decide : Plain "\"") name).append
        (by decide : Plain "\" expects ")
      refine ⟨((quoted.append expected).append (by decide)).append found, ?_⟩
      rintro help ⟨⟩
      have takes := (Plain.append (by decide : Plain "`") name).append
        (by decide : Plain "` takes exactly ")
      exact (takes.append expected).append (by decide)

end Messages

/-- The first line of a report on a failed formula. -/
def headerLine (error : CompileError) : String :=
  "error[" ++ error.code ++ "]: " ++ error.message

/-- A bar stands before the formula and before the caret. -/
def sourceLine (formula : String) : String := "  | " ++ formula

def caretLine (index : Nat) : String := "  | " ++ "".pushn ' ' index ++ "^"

/-- A sign without digits is the only reason that comes with help. -/
def refusalHelp (reason : ScanReason) : List String :=
  if reason = .danglingSign then ["help: to negate a variable or group, write `-1*` before it"]
  else []

/-- The lines of a report on a formula that the scanner refused. -/
def refusalLines (formula : String) (error : ScanError) : List String :=
  [headerLine (.scan error), sourceLine formula, caretLine error.index] ++
    refusalHelp error.reason

/-- The lines of a report on a formula that the generator refused. -/
def offenceLines (error : Shader.GenerateError) : List String :=
  headerLine (.generate error) ::
    (Diagnostic.helpFor (.generate error)).toList.map ("help: " ++ ·)

/-- The caret stands below the refused character, or one place behind the formula when it ends too
early. -/
structure Points (formula : String) (error : ScanError) (shown : String) : Prop where
  lines : shown = terminated (refusalLines formula error)
  unbroken : ∀ line ∈ refusalLines formula error, '\n' ∉ line.toList
  caret : (caretLine error.index).toList[4 + error.index]? = some '^'
  below : (sourceLine formula).toList[4 + error.index]? = error.character
  behind : error.character = none → (sourceLine formula).length = 4 + error.index

theorem ScanError.start_span (error : ScanError) : error.span.start = error.index := by
  rw [span]
  split <;> rfl

namespace Renderer

variable {renderer : Renderer} {label text formula : String}

/-- A coloured label stands before a text. -/
theorem displays_labelled (renderer : Renderer) (colour : Colour) (labelled : Plain label)
    (plain : Plain text) :
    Displays (renderer.paint colour label ++ ": " ++ text ++ "\n")
      (terminated [label ++ ": " ++ text]) := by
  have painted := displays_paint renderer colour labelled.unescaped
  have colon : Displays ": " ": " := displays_self (by decide)
  have newline : Displays "\n" "\n" := displays_self (by decide)
  rw [terminated_cons, show terminated [] = "" from rfl, String.append_empty]
  exact ((painted.append colon).append (displays_self plain.unescaped)).append newline

theorem displays_header {error : CompileError} (code : Plain error.code)
    (message : Plain error.message) :
    Displays (renderer.header (.ofError error)) (terminated [headerLine error]) := by
  have label : Plain ("error" ++ "[" ++ error.code ++ "]") :=
    (Plain.append (by decide) code).append (by decide)
  have same : headerLine error = "error" ++ "[" ++ error.code ++ "]" ++ ": " ++ error.message := by
    apply String.toList_injective
    simp [headerLine]
  rw [same]
  exact displays_labelled renderer .red label message

theorem displays_help {help : Option String} (plain : ∀ text, help = some text → Plain text) :
    Displays ((help.map renderer.helpLine).getD "")
      (terminated (help.toList.map ("help: " ++ ·))) := by
  cases help with
  | none => exact displays_self List.not_mem_nil
  | some text => exact displays_labelled renderer .cyan (by decide) (plain text rfl)

/-- The marker of a refused character is one caret, and so is that of the end of the formula. -/
theorem marker_span (caret : renderer.indicator = '^') (error : ScanError) :
    renderer.marker error.span = "^" := by
  rw [marker, caret, ScanError.span]
  split
  case h_1 =>
    rw [Span.width_single]
    rfl
  case h_2 =>
    rw [Span.width_point]
    rfl

theorem displays_snippet (caret : renderer.indicator = '^') (error : ScanError)
    (plain : Plain formula) :
    Displays (renderer.snippet error.span formula)
      (terminated [sourceLine formula, caretLine error.index]) := by
  have gutter : Displays ("  " ++ renderer.paint .cyan "|" ++ " ") ("  " ++ "|" ++ " ") :=
    ((displays_self (by decide)).append (displays_paint renderer .cyan (by decide))).append
      (displays_self (by decide))
  have spaces : '\x1b' ∉ ("".pushn ' ' error.index).toList := by
    rw [toList_pushn]
    simp
  have marker : Displays (renderer.paint .red (renderer.marker error.span)) "^" := by
    rw [marker_span caret]
    exact displays_paint renderer .red (by decide)
  have newline : Displays "\n" "\n" := displays_self (by decide)
  have above := (gutter.append (displays_self plain.unescaped)).append newline
  have below := ((above.append gutter).append (displays_self spaces)).append marker
  have same : terminated [sourceLine formula, caretLine error.index] =
      "  " ++ "|" ++ " " ++ formula ++ "\n" ++ ("  " ++ "|" ++ " ") ++ "".pushn ' ' error.index ++
        "^" ++ "\n" := by
    apply String.toList_injective
    simp [terminated, sourceLine, caretLine]
  rw [same, snippet, error.start_span]
  exact below.append newline

variable {diagnostic : Diagnostic} {source : Option String}

theorem render_placed {span : Span} (sourced : renderer.showSource = true)
    (helped : renderer.showHelp = true) (placed : diagnostic.span = some span) :
    renderer.render diagnostic (some formula) =
      renderer.header diagnostic ++ renderer.snippet span formula ++
        (diagnostic.help.map renderer.helpLine).getD "" := by
  obtain ⟨severity, code, message, help, place⟩ := diagnostic
  obtain rfl : place = some span := placed
  simp only [render, sourced, helped]
  cases help <;> rfl

/-- Without a place the source is not shown. -/
theorem render_unplaced (helped : renderer.showHelp = true) (unplaced : diagnostic.span = none) :
    renderer.render diagnostic source =
      renderer.header diagnostic ++ (diagnostic.help.map renderer.helpLine).getD "" := by
  obtain ⟨severity, code, message, help, place⟩ := diagnostic
  obtain rfl : place = none := unplaced
  simp only [render, helped]
  cases help <;> simp

end Renderer

/-- An error of the scanner names the character at its index, or the end of the formula. -/
theorem Scanner.character_of_tokenize {formula : String} {error : ScanError}
    (refused : tokenize formula = .error error) :
    formula.toList[error.index]? = error.character ∧
      (error.character = none → error.index = formula.length) := by
  rcases tokenize_error_cases refused with
    ⟨scanner, text, c, rest, split, consumed, stops⟩ | ⟨scanner, last, consumed, ended⟩
  · obtain ⟨character, index⟩ := step_error stops
    rw [character, index, Nat.zero_add, split]
    simp
  · obtain ⟨character, index⟩ := finish_error ended
    rw [character, index, ← String.length_toList]
    simp

/-- Each error of a formula comes from its scanner or is an offence of one of its tokens. -/
theorem compile_error_cases {precedence : Precedence} {formula : String} {error : CompileError}
    (failed : compile precedence formula = .error error) :
    (∃ refusal, tokenize formula = .error refusal ∧ error = .scan refusal) ∨
      ∃ tokens token behind offence, tokenize formula = .ok tokens ∧ token ∈ tokens ∧
        token.Offends behind offence ∧ error = .generate offence := by
  cases scanned : tokenize formula with
  | error refusal =>
      rw [compile, parse, scanned] at failed
      exact .inl ⟨refusal, rfl, (Except.error.inj failed).symm⟩
  | ok tokens =>
      obtain ⟨offence, found, same⟩ := ((compile_of_tokenize precedence scanned).1 error).mp failed
      obtain ⟨before, token, behind, rfl, -, offends⟩ :=
        (Token.firstOffence?_eq_some_iff tokens offence).mp found
      exact .inr ⟨_, token, behind, offence, rfl, by simp, offends, same⟩

section Reports

variable {formula : String} {renderer : Renderer}

theorem Plain.headerLine {error : CompileError} (code : Plain error.code)
    (message : Plain error.message) : Plain (headerLine error) :=
  ((Plain.append (by decide) code).append (by decide)).append message

/-- Four characters stand before each of the two lines. -/
theorem getElem?_behind_bar (text : String) (column : Nat) :
    ("  | " ++ text).toList[4 + column]? = text.toList[column]? := by
  rw [String.toList_append, List.getElem?_append_right (Nat.le_add_right 4 column)]
  exact congrArg (text.toList[·]?) (Nat.add_sub_cancel_left 4 column)

theorem plain_refusalHelp (reason : ScanReason) : ∀ line ∈ refusalHelp reason, Plain line := by
  rw [refusalHelp]
  split
  · decide
  · simp

theorem plain_caretLine (index : Nat) : Plain (caretLine index) := by
  have spaces : Plain ("".pushn ' ' index) := by
    apply Plain.of_forall
    rw [toList_pushn]
    simp
  exact (Plain.append (by decide) spaces).append (by decide)

/-- The report on an error of the scanner points at it. -/
theorem points_render {error : ScanError} (plain : Plain formula)
    (sourced : renderer.showSource = true) (helped : renderer.showHelp = true)
    (caret : renderer.indicator = '^') (refused : tokenize formula = .error error) :
    Points formula error
      (displayed (renderer.render (.ofError (.scan error)) (some formula))) := by
  obtain ⟨character, atEnd⟩ := Scanner.character_of_tokenize refused
  have message : Plain (CompileError.scan error).message := by
    apply ScanError.plain_message
    intro c found
    have member := List.mem_of_getElem? (character.trans found)
    exact ⟨fun same => plain.unbroken (same ▸ member), fun same => plain.unescaped (same ▸ member)⟩
  have code : Plain (CompileError.scan error).code := error.reason.plain_code
  constructor
  case lines =>
    have helps : (Diagnostic.helpFor (.scan error)).toList.map ("help: " ++ ·) =
        refusalHelp error.reason := by
      rw [Diagnostic.helpFor, refusalHelp]
      split <;> rfl
    have helping : ∀ text, Diagnostic.helpFor (.scan error) = some text → Plain text := by
      rw [Diagnostic.helpFor]
      split <;> rintro text ⟨⟩
      decide
    have header := renderer.displays_header code message
    have whole := (header.append (renderer.displays_snippet caret error plain)).append
      (renderer.displays_help helping)
    rw [helps, ← terminated_append, ← terminated_append] at whole
    rw [Renderer.render_placed sourced helped rfl]
    exact whole.displayed_eq
  case unbroken =>
    intro line member
    rw [refusalLines, List.mem_append, List.mem_cons, List.mem_cons, List.mem_singleton] at member
    rcases member with (rfl | rfl | rfl) | help
    · exact (Plain.headerLine code message).unbroken
    · exact (Plain.append (by decide) plain).unbroken
    · exact (plain_caretLine error.index).unbroken
    · exact (plain_refusalHelp error.reason line help).unbroken
  case caret =>
    rw [caretLine, String.append_assoc, getElem?_behind_bar, String.toList_append, toList_pushn]
    simp
  case below =>
    rw [sourceLine, getElem?_behind_bar, character]
  case behind =>
    intro missing
    rw [sourceLine, String.length_append, atEnd missing]
    rfl

/-- The report on an offence is a header with at most a hint. -/
theorem displayed_offence {token : Token} {behind : List Token} {error : Shader.GenerateError}
    (source : Option String) (helped : renderer.showHelp = true)
    (wellFormed : token.lexeme.WellFormed) (offends : token.Offends behind error) :
    displayed (renderer.render (.ofError (.generate error)) source) =
        terminated (offenceLines error) ∧
      ∀ line ∈ offenceLines error, '\n' ∉ line.toList ∧ ¬ "  | ".toList <+: line.toList := by
  obtain ⟨quoted, helping⟩ := offends.plain wellFormed
  have message : Plain (CompileError.generate error).message := quoted
  have code : Plain (CompileError.generate error).code := error.plain_code
  constructor
  · have header := renderer.displays_header code message
    have whole := header.append (renderer.displays_help helping)
    rw [← terminated_append] at whole
    rw [Renderer.render_unplaced helped rfl]
    exact whole.displayed_eq
  · intro line member
    rcases List.mem_cons.mp member with rfl | help
    · refine ⟨(Plain.headerLine code message).unbroken, ?_⟩
      simp [headerLine, List.cons_prefix_cons]
    · obtain ⟨text, listed, rfl⟩ := List.mem_map.mp help
      have hint := helping text (Option.mem_toList.mp listed)
      refine ⟨(Plain.append (by decide) hint).unbroken, ?_⟩
      simp [List.cons_prefix_cons]

end Reports

/-- The report on an index below the last machine word has a place. -/
theorem ofError?_scan {error : ScanError} {formula : String}
    (refused : tokenize formula = .error error) (short : formula.length < wordCount) :
    Diagnostic.ofError? (.scan error) = some (.ofError (.scan error)) := by
  obtain ⟨character, -⟩ := Scanner.character_of_tokenize refused
  obtain ⟨_ | c, index, reason⟩ := error
  · rfl
  · obtain ⟨inside, -⟩ := List.getElem?_eq_some_iff.mp character
    rw [String.length_toList] at inside
    have fits : index + 1 < wordCount := Nat.lt_of_le_of_lt inside short
    simp [Diagnostic.ofError?, Span.single?, fits]

/-- A reader sees which character of a formula was refused. An offence of the generator has no
place, and its report does not show the formula. -/
theorem render_points (precedence : Precedence) (formula : String) (renderer : Renderer)
    (unbroken : '\n' ∉ formula.toList) (unescaped : '\x1b' ∉ formula.toList)
    (sourced : renderer.showSource = true) (helped : renderer.showHelp = true)
    (caret : renderer.indicator = '^') :
    (∀ error, compile precedence formula = .error (.scan error) →
      (formula.length < wordCount →
        Diagnostic.ofError? (.scan error) = some (.ofError (.scan error))) ∧
      Points formula error
        (displayed (renderer.render (.ofError (.scan error)) (some formula)))) ∧
    ∀ error, compile precedence formula = .error (.generate error) →
      Diagnostic.ofError? (.generate error) = some (.ofError (.generate error)) ∧
      displayed (renderer.render (.ofError (.generate error)) (some formula)) =
        terminated (offenceLines error) ∧
      ∀ line ∈ offenceLines error, '\n' ∉ line.toList ∧ ¬ "  | ".toList <+: line.toList := by
  constructor
  · intro error failed
    rcases compile_error_cases failed with ⟨refusal, refused, same⟩ | ⟨_, _, _, _, _, _, _, same⟩
    · obtain rfl := CompileError.scan.inj same
      exact ⟨ofError?_scan refused,
        points_render ⟨unbroken, unescaped⟩ sourced helped caret refused⟩
    · cases same
  · intro error failed
    rcases compile_error_cases failed with
      ⟨_, _, same⟩ | ⟨tokens, token, behind, offence, accepted, member, offends, same⟩
    · cases same
    · obtain rfl := CompileError.generate.inj same
      have wellFormed := wellFormed_of_tokenize accepted token member
      exact ⟨rfl, displayed_offence (some formula) helped wellFormed offends⟩

/-- A sign has a letter behind it, a bracket stays open, and a function is not known. -/
theorem render_points_sample :
    compile .distinct "2 + -π" = .error (.scan ⟨some 'π', 5, .danglingSign⟩) ∧
      displayed (Renderer.render { useColors := true }
        (.ofError (.scan ⟨some 'π', 5, .danglingSign⟩)) (some "2 + -π")) =
          "error[E0005]: unexpected character 'π' at index 5: a minus sign must be followed by " ++
            "digits\n  | 2 + -π\n  |      ^\n" ++
            "help: to negate a variable or group, write `-1*` before it\n" ∧
      compile .conventional "(2" = .error (.scan ⟨none, 2, .unclosedGroup 1⟩) ∧
      displayed (Renderer.render { useColors := false }
        (.ofError (.scan ⟨none, 2, .unclosedGroup 1⟩)) (some "(2")) =
          "error[E0008]: unexpected end of input at index 2: 1 unclosed group(s) at end of " ++
            "input\n  | (2\n  |   ^\n" ∧
      compile .conventional "foo(z)" = .error (.generate (.unknownOperation "foo")) ∧
      displayed (Renderer.render { useColors := true }
        (.ofError (.generate (.unknownOperation "foo"))) (some "foo(z)")) =
          "error[E2003]: unknown operator or function \"foo\"\n" := by
  have sign : compile .distinct "2 + -π" = .error (.scan ⟨some 'π', 5, .danglingSign⟩) := by
    decide +kernel
  have opened : compile .conventional "(2" = .error (.scan ⟨none, 2, .unclosedGroup 1⟩) := by
    decide +kernel
  have unknown : compile .conventional "foo(z)" =
      .error (.generate (.unknownOperation "foo")) := by decide +kernel
  have first := ((render_points .distinct "2 + -π" { useColors := true } (by decide) (by decide)
    rfl rfl rfl).1 _ sign).2
  have second := ((render_points .conventional "(2" { useColors := false } (by decide) (by decide)
    rfl rfl rfl).1 _ opened).2
  have third := ((render_points .conventional "foo(z)" { useColors := true } (by decide)
    (by decide) rfl rfl rfl).2 _ unknown).2.1
  exact ⟨sign, first.lines.trans (by decide +kernel), opened,
    second.lines.trans (by decide +kernel), unknown, third.trans (by decide +kernel)⟩

end GlslFormula
