import GlslFormula.Proofs.Respelling

namespace GlslFormula

namespace Token

/-- Blanks may go to this place. It is not inside the token, and not between the name of a function
and its bracket. -/
structure Yields (token : Token) (place : Nat) : Prop where
  outside : ¬ (token.span.start < place ∧ place < token.span.stop)
  apart : token.kind = .functionName → token.span.stop ≠ place

instance (token : Token) (place : Nat) : Decidable (token.Yields place) :=
  decidable_of_iff
    (¬ (token.span.start < place ∧ place < token.span.stop) ∧
      (token.kind = .functionName → token.span.stop ≠ place))
    ⟨fun both => ⟨both.1, both.2⟩, fun yields => ⟨yields.outside, yields.apart⟩⟩

/-- The token moves when so many characters go before it. -/
def moved (token : Token) (place width : Nat) : Token :=
  if token.span.start < place then token
  else { token with span := ⟨token.span.start + width, token.span.stop + width⟩ }

end Token

namespace Layout

/-- Blanks go to the gap at this place. -/
def widen (place : Nat) (blanks : List Char) : Layout → Layout
  | .start gap => .start (splice gap place blanks)
  | .put before lexeme gap =>
      if place < before.source.length + lexeme.text.length then
        (before.widen place blanks).put lexeme gap
      else
        before.put lexeme
          (splice gap (place - (before.source.length + lexeme.text.length)) blanks)

section Widening

variable {layout before : Layout} {lexeme : Lexeme} {gap blanks : List Char} {place : Nat}

/-- A place before the end of the last lexeme is also before its start. -/
theorem le_of_yields (wellFormed : lexeme.WellFormed)
    (yields : (before.lastToken lexeme gap).Yields place)
    (sooner : place < before.source.length + lexeme.text.length) :
    place ≤ before.source.length := by
  by_cases factor : lexeme.kind = .implicitMultiply
  · have noText := Lexeme.text_of_implicitMultiply wellFormed factor
    rw [← String.length_toList, noText] at sooner
    exact Nat.le_of_lt sooner
  · have outside := yields.outside
    simp only [lastToken, factor, if_false] at outside
    omega

/-- All tokens start before the last lexeme ends, if this one has a text. -/
theorem start_lt_of_explicit (proper : (before.put lexeme gap).Proper)
    (explicit : lexeme.kind ≠ .implicitMultiply) {token : Token}
    (member : token ∈ (before.put lexeme gap).emitted) :
    token.span.start < before.source.length + lexeme.text.length := by
  obtain ⟨properBefore, wellFormed, -, -⟩ := proper.of_put
  have positive := Lexeme.length_pos wellFormed explicit
  rw [emitted_put, List.mem_cons] at member
  rcases member with rfl | earlier
  · simp only [lastToken, explicit, if_false]
    omega
  · obtain ⟨ordered, bounded, -, -, -⟩ := marks_emitted properBefore token earlier
    omega

/-- All other tokens start before the last lexeme ends. -/
theorem start_lt_of_mem (proper : (before.put lexeme gap).Proper) {token : Token}
    (member : token ∈ before.emitted) :
    token.span.start < before.source.length + lexeme.text.length := by
  by_cases factor : lexeme.kind = .implicitMultiply
  · -- The lexeme before a multiplication without a sign has a text.
    obtain ⟨properBefore, -, -, admitted⟩ := proper.of_put
    cases before with
    | start first => simp [emitted] at member
    | put earlier last lastGap =>
        have explicit : last.kind ≠ .implicitMultiply := by
          intro again
          simpa [factor] using admitted.factor again
        have sooner := start_lt_of_explicit properBefore explicit member
        rw [length_source_put]
        omega
  · exact start_lt_of_explicit proper factor (List.mem_cons_of_mem _ member)

theorem source_widen (proper : layout.Proper)
    (yields : ∀ token ∈ layout.emitted, token.Yields place) :
    (layout.widen place blanks).source = splice layout.source place blanks := by
  induction layout with
  | start gap => rfl
  | put before lexeme gap inductionHypothesis =>
      obtain ⟨properBefore, wellFormed, -, -⟩ := proper.of_put
      rw [emitted_put, List.forall_mem_cons] at yields
      rw [widen]
      split
      case isTrue sooner =>
        have inside := le_of_yields wellFormed yields.1 sooner
        rw [source, inductionHypothesis properBefore yields.2, source, List.append_assoc,
          List.append_assoc, splice_append_left inside]
      case isFalse later =>
        have length : (before.source ++ lexeme.text.toList).length =
            before.source.length + lexeme.text.length := by
          rw [List.length_append, String.length_toList]
        rw [source, source, splice_append_right (by omega), length]

/-- The last token moves when blanks go before its lexeme. -/
theorem lastToken_widen {wider : Layout} (gap : List Char) (inside : place ≤ before.source.length)
    (longer : wider.source.length = before.source.length + blanks.length) :
    wider.lastToken lexeme gap = (before.lastToken lexeme gap).moved place blanks.length := by
  by_cases factor : lexeme.kind = .implicitMultiply
  · have behind : ¬ before.source.length + gap.length < place := by omega
    simp only [lastToken, factor, if_true, Span.point, Token.moved, behind, if_false, longer]
    rw [Nat.add_right_comm]
  · simp only [lastToken, factor, if_false, Token.moved, Nat.not_lt.mpr inside, longer]
    rw [Nat.add_right_comm]

/-- The last token moves when blanks go behind its lexeme only if it is a multiplication without a
sign. -/
theorem lastToken_splice (wellFormed : lexeme.WellFormed) {offset : Nat}
    (reached : place = before.source.length + lexeme.text.length + offset)
    (inside : offset ≤ gap.length) :
    before.lastToken lexeme (splice gap offset blanks) =
      (before.lastToken lexeme gap).moved place blanks.length := by
  by_cases factor : lexeme.kind = .implicitMultiply
  · have noText := Lexeme.text_of_implicitMultiply wellFormed factor
    rw [← String.length_toList, noText, List.length_nil] at reached
    have behind : ¬ before.source.length + gap.length < place := by omega
    simp only [lastToken, factor, if_true, Span.point, Token.moved, behind, if_false,
      length_splice, Nat.add_assoc]
  · have positive := Lexeme.length_pos wellFormed factor
    have sooner : before.source.length < place := by omega
    simp only [lastToken, factor, if_false, Token.moved, sooner, if_true]

theorem emitted_widen (proper : layout.Proper)
    (yields : ∀ token ∈ layout.emitted, token.Yields place)
    (inside : place ≤ layout.source.length) :
    (layout.widen place blanks).emitted =
      layout.emitted.map fun token => token.moved place blanks.length := by
  induction layout with
  | start gap => rfl
  | put before lexeme gap inductionHypothesis =>
      obtain ⟨properBefore, wellFormed, -, -⟩ := proper.of_put
      rw [emitted_put, List.forall_mem_cons] at yields
      rw [widen]
      split
      case isTrue sooner =>
        have insideBefore := le_of_yields wellFormed yields.1 sooner
        have longer : (before.widen place blanks).source.length =
            before.source.length + blanks.length := by
          rw [source_widen properBefore yields.2, length_splice]
        rw [emitted_put, emitted_put, List.map_cons, lastToken_widen gap insideBefore longer,
          inductionHypothesis properBefore yields.2 insideBefore]
      case isFalse later =>
        have kept (token : Token) (member : token ∈ before.emitted) :
            token.moved place blanks.length = id token := by
          have sooner := start_lt_of_mem proper member
          rw [Token.moved, if_pos (by omega), id]
        have reached : place = before.source.length + lexeme.text.length +
            (place - (before.source.length + lexeme.text.length)) := by
          omega
        rw [length_source_put] at inside
        rw [emitted_put, emitted_put, List.map_cons, List.map_congr_left kept, List.map_id,
          lastToken_splice wellFormed reached (by omega)]

/-- What may stand behind a layout may also stand behind a wider one. -/
theorem admits_widen {next : Lexeme} {nextGap : List Char}
    (yields : ∀ token ∈ layout.emitted, token.Yields place)
    (inside : place ≤ layout.source.length) (admitted : layout.Admits next nextGap) :
    (layout.widen place blanks).Admits next nextGap := by
  cases layout with
  | start gap => trivial
  | put before lexeme gap =>
      rw [widen]
      split
      case isTrue sooner => exact admitted
      case isFalse later =>
        constructor
        · intro named
          -- The gap is empty, so the place is where the name ends.
          have apart := (yields _ (List.mem_cons_self ..)).apart named
          rw [length_source_put, admitted.touches named, List.length_nil] at inside
          simp only [named, reduceCtorEq, if_false] at apart
          omega
        · exact admitted.factor
        · intro symbol adjacent empty
          obtain ⟨noGap, noNext⟩ := List.append_eq_nil_iff.mp empty
          apply admitted.parted symbol adjacent
          rw [eq_nil_of_splice noGap, noNext, List.append_nil]

theorem Proper.widen (proper : layout.Proper)
    (yields : ∀ token ∈ layout.emitted, token.Yields place)
    (inside : place ≤ layout.source.length) (isGap : IsGap blanks) :
    (layout.widen place blanks).Proper := by
  induction layout with
  | start gap => exact ⟨isGap_splice proper.spaced place isGap, by simp [Layout.widen, lexemes]⟩
  | put before lexeme gap inductionHypothesis =>
      obtain ⟨properBefore, wellFormed, isLastGap, admitted⟩ := proper.of_put
      rw [emitted_put, List.forall_mem_cons] at yields
      rw [Layout.widen]
      split
      case isTrue sooner =>
        have insideBefore := le_of_yields wellFormed yields.1 sooner
        have wider := inductionHypothesis properBefore yields.2 insideBefore
        exact wider.put wellFormed isLastGap (admits_widen yields.2 insideBefore admitted)
      case isFalse later =>
        refine properBefore.put wellFormed (isGap_splice isLastGap _ isGap) ?_
        cases before with
        | start first => trivial
        | put earlier last lastGap =>
            refine ⟨admitted.touches, admitted.factor, ?_⟩
            intro symbol adjacent empty
            obtain ⟨noGap, noNext⟩ := List.append_eq_nil_iff.mp empty
            apply admitted.parted symbol adjacent
            rw [noGap, eq_nil_of_splice noNext, List.append_nil]

theorem lexemes_widen (layout : Layout) (place : Nat) (blanks : List Char) :
    (layout.widen place blanks).lexemes = layout.lexemes := by
  induction layout with
  | start gap => rfl
  | put before lexeme gap inductionHypothesis =>
      rw [widen]
      split
      · rw [lexemes, lexemes, inductionHypothesis]
      · rfl

end Widening

end Layout

/-- Blanks may go to each place of a formula that is not inside a token and not behind the name of a
function. The tokens behind the place move, and the result stays the same. -/
theorem tokenize_blanks (formula : String) (tokens : List Token)
    (accepted : tokenize formula = .ok tokens) (place : Nat) (inside : place ≤ formula.length)
    (yields : ∀ token ∈ tokens, token.Yields place) (blanks : List Char) (isGap : IsGap blanks) :
    tokenize (String.ofList (splice formula.toList place blanks)) =
        .ok (tokens.map fun token => token.moved place blanks.length) ∧
      ∀ precedence, compile precedence (String.ofList (splice formula.toList place blanks)) =
        compile precedence formula := by
  obtain ⟨layout, proper, -, same, rfl⟩ := exists_layout_of_tokenize accepted
  have yieldsAll : ∀ token ∈ layout.emitted, token.Yields place := by
    intro token member
    exact yields token (List.mem_reverse.mpr member)
  rw [← String.length_toList, ← same] at inside
  have source : (layout.widen place blanks).source =
      (String.ofList (splice formula.toList place blanks)).toList := by
    rw [layout.source_widen proper yieldsAll, same, String.toList_ofList]
  obtain ⟨scanned, results⟩ := Layout.respells accepted (proper.widen yieldsAll inside isGap)
    source (by rw [layout.lexemes_widen])
  rw [layout.emitted_widen proper yieldsAll inside, ← List.map_reverse] at scanned
  exact ⟨scanned, fun precedence => (results precedence).2⟩

def adjacentTokens : List Token :=
  [⟨.number, "2", ⟨0, 1⟩⟩, ⟨.implicitMultiply, "", ⟨1, 1⟩⟩, ⟨.functionName, "sin", ⟨1, 4⟩⟩,
    ⟨.functionArgsStart, "(", ⟨4, 5⟩⟩, ⟨.symbol, "z", ⟨5, 6⟩⟩, ⟨.functionArgsEnd, ")", ⟨6, 7⟩⟩]

/-- The multiplication without a sign moves with the function behind it. -/
theorem tokenize_blanks_sample :
    tokenize "2sin(z)" = .ok adjacentTokens ∧ (∀ token ∈ adjacentTokens, token.Yields 1) ∧
      ¬ (∀ token ∈ adjacentTokens, token.Yields 4) ∧
      tokenize "2 \tsin(z)" = .ok
        [⟨.number, "2", ⟨0, 1⟩⟩, ⟨.implicitMultiply, "", ⟨3, 3⟩⟩, ⟨.functionName, "sin", ⟨3, 6⟩⟩,
          ⟨.functionArgsStart, "(", ⟨6, 7⟩⟩, ⟨.symbol, "z", ⟨7, 8⟩⟩,
          ⟨.functionArgsEnd, ")", ⟨8, 9⟩⟩] ∧
      compile .distinct "2 \tsin(z)" = compile .distinct "2sin(z)" := by
  have accepted : tokenize "2sin(z)" = .ok adjacentTokens := by decide +kernel
  have yields : ∀ token ∈ adjacentTokens, token.Yields 1 := by decide
  obtain ⟨scanned, results⟩ := tokenize_blanks "2sin(z)" adjacentTokens accepted 1 (by decide)
    yields [' ', '\t'] (by simp [IsGap])
  exact ⟨accepted, yields, by decide, scanned, results .distinct⟩

end GlslFormula
