import GlslFormula.Proofs.Tokenization

namespace GlslFormula

/-- These are the characters of the source that the span covers. -/
def Span.slice (span : Span) (source : List Char) : List Char :=
  (source.take span.stop).drop span.start

def Span.Covers (span : Span) (index : Nat) : Prop := span.start ≤ index ∧ index < span.stop

namespace Token

/-- The token has the characters of its span, and only a multiplication without a sign has none. -/
structure Marks (token : Token) (source : List Char) : Prop where
  ordered : token.span.start ≤ token.span.stop
  bounded : token.span.stop ≤ source.length
  shown : token.text.toList = token.span.slice source
  filled : token.kind ≠ .implicitMultiply → token.span.start < token.span.stop
  empty : token.kind = .implicitMultiply → token.text = "" ∧ token.span.start = token.span.stop

/-- The next token starts behind this one. It starts where a multiplication without a sign is. -/
structure Meets (first second : Token) : Prop where
  follows : first.span.stop ≤ second.span.start
  factor : first.kind = .implicitMultiply → first.span = .point second.span.start

/-- The tokens show the source up to the blanks between them. -/
structure Tile (tokens : List Token) (source : List Char) : Prop where
  marks : ∀ token ∈ tokens, token.Marks source
  meets : tokens.IsChain Meets
  last : ∀ token ∈ tokens.getLast?, token.kind ≠ .implicitMultiply
  between : ∀ index c, source[index]? = some c → (∀ token ∈ tokens, ¬ token.span.Covers index) →
    c = ' ' ∨ c = '\t'

/-- What stands behind the span of a token does not matter. -/
theorem Marks.append {token : Token} {source : List Char} (marks : token.Marks source)
    (more : List Char) : token.Marks (source ++ more) where
  ordered := marks.ordered
  bounded := by
    rw [List.length_append]
    exact Nat.le_add_right_of_le marks.bounded
  shown := by
    rw [marks.shown, Span.slice, Span.slice, List.take_append_of_le_length marks.bounded]
  filled := marks.filled
  empty := marks.empty

end Token

/-- A lexeme has no text exactly when it is a multiplication without a sign. -/
theorem Lexeme.text_eq_nil_iff {lexeme : Lexeme} (wellFormed : lexeme.WellFormed) :
    lexeme.text.toList = [] ↔ lexeme.kind = .implicitMultiply := by
  refine ⟨?_, text_of_implicitMultiply wellFormed⟩
  obtain ⟨kind, text⟩ := lexeme
  intro empty
  cases kind with
  | implicitMultiply => rfl
  | number =>
      rcases wellFormed with isInteger | isDecimal
      · have holds : ScanPhase.inInteger.Holds text.toList := isInteger
        exact absurd empty (holds.ne_nil (by simp) (by simp))
      · have holds : ScanPhase.inDecimal.Holds text.toList := isDecimal
        exact absurd empty (holds.ne_nil (by simp) (by simp))
  | symbol | functionName =>
      obtain ⟨first, rest, spelled, -⟩ := wellFormed
      simp [empty] at spelled
  | operator =>
      obtain ⟨operator, rfl⟩ := wellFormed
      obtain ⟨c, single, -⟩ := operator.exists_sign
      rw [single] at empty
      simp at empty
  | parenthesisOpen | parenthesisClose | functionArgsStart | functionArgsEnd | argSeparator =>
      simp [show text = _ from wellFormed] at empty

theorem Lexeme.length_pos {lexeme : Lexeme} (wellFormed : lexeme.WellFormed)
    (explicit : lexeme.kind ≠ .implicitMultiply) : 0 < lexeme.text.length := by
  rw [← String.length_toList, List.length_pos_iff]
  exact mt (text_eq_nil_iff wellFormed).mp explicit

namespace Layout

/-- This is the token of the last lexeme. -/
def lastToken (before : Layout) (lexeme : Lexeme) (gap : List Char) : Token :=
  ⟨lexeme.kind, lexeme.text,
    if lexeme.kind = .implicitMultiply then .point (before.source.length + gap.length)
    else ⟨before.source.length, before.source.length + lexeme.text.length⟩⟩

theorem length_source_put (before : Layout) (lexeme : Lexeme) (gap : List Char) :
    (before.put lexeme gap).source.length =
      before.source.length + lexeme.text.length + gap.length := by
  rw [source, List.length_append, List.length_append, String.length_toList]

theorem emitted_put (before : Layout) (lexeme : Lexeme) (gap : List Char) :
    (before.put lexeme gap).emitted = before.lastToken lexeme gap :: before.emitted := rfl

theorem marks_lastToken (before : Layout) {lexeme : Lexeme} (gap : List Char)
    (wellFormed : lexeme.WellFormed) :
    (before.lastToken lexeme gap).Marks (before.put lexeme gap).source := by
  by_cases factor : lexeme.kind = .implicitMultiply
  · have noText : lexeme.text = "" := by
      simpa using Lexeme.text_of_implicitMultiply wellFormed factor
    constructor <;> simp [lastToken, factor, Span.point, Span.slice, source, noText]
  · have slice : ((before.source ++ lexeme.text.toList ++ gap).take
        (before.source.length + lexeme.text.length)).drop before.source.length =
        lexeme.text.toList := by
      rw [List.take_left' (by simp [String.length_toList]), List.drop_left]
    constructor
    · simp [lastToken, factor]
    · simp [lastToken, factor, length_source_put]
    · simpa [lastToken, factor, Span.slice, source] using slice.symm
    · simpa [lastToken, factor] using Lexeme.length_pos wellFormed factor
    · simp [lastToken, factor]

theorem marks_emitted {layout : Layout} (proper : layout.Proper) :
    ∀ token ∈ layout.emitted, token.Marks layout.source := by
  induction layout with
  | start gap => simp [emitted]
  | put before lexeme gap inductionHypothesis =>
      obtain ⟨properBefore, wellFormed, -, -⟩ := proper.of_put
      intro token member
      rw [emitted_put, List.mem_cons] at member
      rcases member with rfl | earlier
      · exact before.marks_lastToken gap wellFormed
      · have marks := inductionHypothesis properBefore token earlier
        rw [source, List.append_assoc]
        exact marks.append _

/-- A multiplication without a sign stands at the end of its gap, where the next lexeme starts. -/
theorem lastToken_factor {before : Layout} {lexeme next : Lexeme} {gap nextGap : List Char}
    (wellFormed : lexeme.WellFormed) (precedes : lexeme.Precedes gap next nextGap)
    (factor : lexeme.kind = .implicitMultiply) :
    (before.lastToken lexeme gap).span =
      .point ((before.put lexeme gap).lastToken next nextGap).span.start := by
  have noText := Lexeme.text_of_implicitMultiply wellFormed factor
  have explicit : next.kind ≠ .implicitMultiply := by
    intro again
    simpa [again] using precedes.factor factor
  simp [lastToken, factor, explicit, source, noText, Span.point]

/-- Each token meets the one before it. The latest token stands first. -/
theorem meets_emitted {layout : Layout} (proper : layout.Proper) :
    layout.emitted.IsChain fun second first => first.Meets second := by
  induction layout with
  | start gap => exact .nil
  | put before lexeme gap inductionHypothesis =>
      obtain ⟨properBefore, -, -, admitted⟩ := proper.of_put
      rw [emitted_put, List.isChain_cons]
      refine ⟨?_, inductionHypothesis properBefore⟩
      cases before with
      | start first => simp [emitted]
      | put earlier last lastGap =>
          have starts : (earlier.put last lastGap).source.length ≤
              ((earlier.put last lastGap).lastToken lexeme gap).span.start := by
            rw [lastToken]
            split <;> simp [Span.point]
          have wellFormed := properBefore.of_put.2.1
          rintro first ⟨⟩
          exact ⟨(earlier.marks_lastToken lastGap wellFormed).bounded.trans starts,
            lastToken_factor wellFormed admitted⟩

/-- Outside the spans of the tokens there are only gaps. -/
theorem between_emitted {layout : Layout} (proper : layout.Proper) {index : Nat} {c : Char}
    (found : layout.source[index]? = some c)
    (outside : ∀ token ∈ layout.emitted, ¬ token.span.Covers index) : c = ' ' ∨ c = '\t' := by
  induction layout with
  | start gap => exact proper.spaced c (List.mem_of_getElem? found)
  | put before lexeme gap inductionHypothesis =>
      obtain ⟨properBefore, wellFormed, isGap, -⟩ := proper.of_put
      rw [emitted_put, List.forall_mem_cons] at outside
      rw [source, List.append_assoc, List.getElem?_append] at found
      split at found
      case isTrue sooner => exact inductionHypothesis properBefore found outside.2
      case isFalse later =>
        rw [List.getElem?_append] at found
        split at found
        case isFalse behind => exact isGap c (List.mem_of_getElem? found)
        case isTrue inText =>
          -- The character belongs to the text of the lexeme, so its token covers it.
          have explicit : lexeme.kind ≠ .implicitMultiply := by
            intro factor
            rw [Lexeme.text_of_implicitMultiply wellFormed factor] at inText
            simp at inText
          have covered : (before.lastToken lexeme gap).span.Covers index := by
            rw [String.length_toList] at inText
            simp only [lastToken, explicit, if_false, Span.Covers]
            omega
          exact absurd covered outside.1

/-- A complete layout does not end with a multiplication. -/
theorem last_emitted {layout : Layout} (complete : Control.after? layout.emitted = some .done) :
    ∀ token ∈ layout.emitted.head?, token.kind ≠ .implicitMultiply := by
  cases layout with
  | start gap => simp [emitted]
  | put before lexeme gap =>
      rintro token ⟨⟩
      exact (closed_of_afterValue complete rfl).2

end Layout

/-- The spans of the tokens of an accepted formula lie in the formula one behind the other, each
token has the text of its span, and all other characters are blanks. A multiplication without a
sign is empty, and the next token starts there. -/
theorem tokenize_tile (formula : String) (tokens : List Token)
    (accepted : tokenize formula = .ok tokens) : Token.Tile tokens formula.toList := by
  obtain ⟨layout, proper, complete, same, rfl⟩ := exists_layout_of_tokenize accepted
  rw [← same]
  constructor
  · intro token member
    exact layout.marks_emitted proper token (List.mem_reverse.mp member)
  · rw [List.isChain_reverse]
    exact layout.meets_emitted proper
  · rw [List.getLast?_reverse]
    exact layout.last_emitted complete
  · intro index c found outside
    exact layout.between_emitted proper found fun token member =>
      outside token (List.mem_reverse.mpr member)

/-- The formula has a sign of a number, a call and two multiplications without a sign. -/
def tiledFormula : String := "\t2 f(-1.5, y)  (z)"

def tiledTokens : List Token :=
  [⟨.number, "2", ⟨1, 2⟩⟩, ⟨.implicitMultiply, "", ⟨3, 3⟩⟩, ⟨.functionName, "f", ⟨3, 4⟩⟩,
    ⟨.functionArgsStart, "(", ⟨4, 5⟩⟩, ⟨.number, "-1.5", ⟨5, 9⟩⟩, ⟨.argSeparator, ",", ⟨9, 10⟩⟩,
    ⟨.symbol, "y", ⟨11, 12⟩⟩, ⟨.functionArgsEnd, ")", ⟨12, 13⟩⟩,
    ⟨.implicitMultiply, "", ⟨15, 15⟩⟩, ⟨.parenthesisOpen, "(", ⟨15, 16⟩⟩,
    ⟨.symbol, "z", ⟨16, 17⟩⟩, ⟨.parenthesisClose, ")", ⟨17, 18⟩⟩]

theorem tokenize_tile_sample :
    tokenize tiledFormula = .ok tiledTokens ∧ Token.Tile tiledTokens tiledFormula.toList := by
  have accepted : tokenize tiledFormula = .ok tiledTokens := by decide +kernel
  exact ⟨accepted, tokenize_tile tiledFormula tiledTokens accepted⟩

end GlslFormula
