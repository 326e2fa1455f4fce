import GlslFormula.Proofs.Composition
import GlslFormula.Proofs.Tiling

namespace GlslFormula

/-- A multiplication without a sign gets the sign `*`. -/
def Lexeme.explicit (lexeme : Lexeme) : Lexeme :=
  if lexeme.kind = .implicitMultiply then ⟨.operator, Operator.mul.symbol⟩ else lexeme

@[simp] theorem Lexeme.explicit_explicit (lexeme : Lexeme) :
    lexeme.explicit.explicit = lexeme.explicit := by
  by_cases factor : lexeme.kind = .implicitMultiply <;> simp [explicit, factor]

/-- The tokens have the same kinds and texts when each multiplication has its sign. -/
def Token.Respell (others tokens : List Token) : Prop :=
  others.map (fun token => token.lexeme.explicit) = tokens.map fun token => token.lexeme.explicit

namespace Builder

/-- A builder does not tell a multiplication without a sign from one with it, and it takes a token
wherever the token stands. -/
theorem feed_explicit (builder : Builder) (token : Token) (span : Span) :
    (builder.feed ⟨token.lexeme.explicit.kind, token.lexeme.explicit.text, span⟩).toOption =
      (builder.feed token).toOption := by
  obtain ⟨precedence, tree, phase, cursor, scopes⟩ := builder
  obtain ⟨kind, text, place⟩ := token
  cases kind with
  | operator =>
      cases phase <;> cases same : Operator.ofSymbol? text <;>
        simp [feed, plan, Lexeme.explicit, Token.lexeme, same, Except.map, Except.toOption]
  | functionArgsEnd | argSeparator | parenthesisClose =>
      rcases scopes with _ | ⟨⟨node, _ | _⟩, outer⟩ <;> cases phase <;>
        simp [feed, plan, Lexeme.explicit, Token.lexeme, Except.map, Except.toOption]
  | _ =>
      cases phase <;>
        simp [feed, plan, Lexeme.explicit, Token.lexeme, Except.map, Except.toOption]

theorem feed_respelled {builder fed : Builder} {token other : Token}
    (same : other.lexeme.explicit = token.lexeme.explicit)
    (success : builder.feed token = .ok fed) : builder.feed other = .ok fed := by
  have alike : (builder.feed other).toOption = (builder.feed token).toOption := by
    rw [← builder.feed_explicit other (.point 0), ← builder.feed_explicit token (.point 0), same]
  rw [success] at alike
  cases taken : builder.feed other with
  | error error => simp [taken, Except.toOption] at alike
  | ok next =>
      rw [taken] at alike
      exact congrArg Except.ok (Option.some.inj alike)

theorem feedAll_respelled {builder fed : Builder} {tokens others : List Token}
    (same : Token.Respell others tokens) (success : builder.feedAll tokens = .ok fed) :
    builder.feedAll others = .ok fed := by
  induction tokens generalizing others builder with
  | nil =>
      obtain rfl : others = [] := List.map_eq_nil_iff.mp same
      exact success
  | cons token rest inductionHypothesis =>
      obtain ⟨other, behind, rfl, first, remaining⟩ := List.map_eq_cons_iff.mp same
      rw [feedAll] at success ⊢
      cases taken : builder.feed token with
      | error error => simp [taken] at success
      | ok next =>
          rw [taken] at success
          rw [feed_respelled first taken]
          exact inductionHypothesis remaining success

end Builder

/-- The tree does not depend on the places of the tokens and on the signs of the products. -/
theorem Tree.ofTokens_respelled {precedence : Precedence} {tokens others : List Token}
    {tree : Tree} (same : Token.Respell others tokens)
    (built : ofTokens precedence tokens = .ok tree) : ofTokens precedence others = .ok tree := by
  rw [ofTokens] at built ⊢
  cases fed : (Builder.start precedence).feedAll tokens with
  | error error => simp [fed] at built
  | ok builder =>
      rw [fed] at built
      rw [Builder.feedAll_respelled same fed]
      exact built

/-- Another layout of the same lexemes is read, and it has the same trees and results. A
multiplication may have lost or got its sign. -/
theorem Layout.respells {layout other : Layout} {formula respelled : String}
    (accepted : tokenize formula = .ok layout.emitted.reverse) (proper : other.Proper)
    (source : other.source = respelled.toList)
    (same : other.lexemes.map Lexeme.explicit = layout.lexemes.map Lexeme.explicit) :
    tokenize respelled = .ok other.emitted.reverse ∧
      ∀ precedence, (∃ tree, parse precedence formula = .ok tree ∧
          parse precedence respelled = .ok tree) ∧
        compile precedence respelled = compile precedence formula := by
  have alike : Token.Respell other.emitted.reverse layout.emitted.reverse := by
    rw [← other.emitted_lexemes, ← layout.emitted_lexemes, List.map_map, List.map_map] at same
    exact same
  have builds (precedence : Precedence) :
      ∃ tree, Tree.ofTokens precedence layout.emitted.reverse = .ok tree ∧
        Tree.ofTokens precedence other.emitted.reverse = .ok tree := by
    obtain ⟨tree, built, -⟩ := error?_generate precedence accepted
    exact ⟨tree, built, Tree.ofTokens_respelled alike built⟩
  have scanned : tokenize respelled = .ok other.emitted.reverse := by
    obtain ⟨tree, -, built⟩ := builds .distinct
    have derived := (Tree.ofTokens_ok_iff .distinct other.emitted.reverse).mp ⟨tree, built⟩
    rw [← Control.after?_eq_done_iff, List.reverse_reverse] at derived
    exact other.tokenize_source proper derived source
  refine ⟨scanned, ?_⟩
  intro precedence
  obtain ⟨tree, built, otherBuilt⟩ := builds precedence
  have parsed := parse_of_tokenize accepted built
  have reparsed := parse_of_tokenize scanned otherBuilt
  refine ⟨⟨tree, parsed, reparsed⟩, ?_⟩
  rw [compile, compile, parsed, reparsed]

/-- The inserted characters go before the character at this place. -/
def splice (source : List Char) (place : Nat) (inserted : List Char) : List Char :=
  source.take place ++ inserted ++ source.drop place

section Splicing

variable {source more inserted : List Char} {place : Nat}

theorem splice_append_left (inside : place ≤ source.length) :
    splice (source ++ more) place inserted = splice source place inserted ++ more := by
  rw [splice, splice, List.take_append_of_le_length inside, List.drop_append_of_le_length inside,
    ← List.append_assoc]

theorem splice_append_right (behind : source.length ≤ place) :
    splice (source ++ more) place inserted =
      source ++ splice more (place - source.length) inserted := by
  simp [splice, List.take_append, List.drop_append, List.take_of_length_le behind,
    List.drop_of_length_le behind]

@[simp] theorem length_splice (source : List Char) (place : Nat) (inserted : List Char) :
    (splice source place inserted).length = source.length + inserted.length := by
  simp only [splice, List.length_append, List.length_take, List.length_drop]
  omega

theorem eq_nil_of_splice (empty : splice source place inserted = []) : source = [] := by
  have length := congrArg List.length empty
  rw [length_splice, List.length_nil] at length
  exact List.length_eq_zero_iff.mp (by omega)

theorem isGap_splice {gap : List Char} (isGap : IsGap gap) (place : Nat)
    (isBlank : IsGap inserted) : IsGap (splice gap place inserted) := by
  intro c member
  rw [splice, List.mem_append, List.mem_append] at member
  rcases member with (before | between) | behind
  · exact isGap c (List.mem_of_mem_take before)
  · exact isBlank c between
  · exact isGap c (List.mem_of_mem_drop behind)

end Splicing

/-- A multiplication without a sign gets the sign `*` at its place. -/
def Token.sign (token : Token) (source : List Char) : List Char :=
  if token.kind = .implicitMultiply then splice source token.span.start ['*'] else source

/-- All multiplications get a sign. The last one goes in first, so the places of the others stay. -/
def Token.signAll (tokens : List Token) (source : List Char) : List Char :=
  tokens.foldr sign source

namespace Layout

/-- Each multiplication gets its sign behind its gap. -/
def explicit : Layout → Layout
  | .start gap => .start gap
  | .put before lexeme gap =>
      if lexeme.kind = .implicitMultiply then
        (before.explicit.blanks gap).put lexeme.explicit []
      else before.explicit.put lexeme gap

theorem lexemes_explicit (layout : Layout) :
    layout.explicit.lexemes = layout.lexemes.map Lexeme.explicit := by
  induction layout with
  | start gap => rfl
  | put before lexeme gap inductionHypothesis =>
      rw [explicit, lexemes, List.map_append, ← inductionHypothesis]
      split
      case isTrue factor => simp [lexemes]
      case isFalse notFactor => simp [lexemes, Lexeme.explicit, notFactor]

theorem Closed.blanks {layout : Layout} (closed : layout.Closed) (gap : List Char) :
    (layout.blanks gap).Closed := by
  induction gap generalizing layout with
  | nil => exact closed
  | cons c gap inductionHypothesis =>
      have longer : (layout.blank c).Closed := by cases layout <;> exact closed
      exact inductionHypothesis longer

theorem Closed.explicit {layout : Layout} (closed : layout.Closed) : layout.explicit.Closed := by
  cases layout with
  | start gap => trivial
  | put before lexeme gap =>
      rw [Layout.explicit, if_neg closed.2]
      exact closed

/-- A lexeme may stand behind a sign wherever it may stand behind a multiplication without one. -/
theorem admits_explicit {layout : Layout} {lexeme : Lexeme} {gap : List Char}
    (admitted : layout.Admits lexeme gap) : layout.explicit.Admits lexeme gap := by
  cases layout with
  | start first => trivial
  | put before last lastGap =>
      rw [explicit]
      split
      case isTrue factor =>
        rw [Lexeme.explicit, if_pos factor]
        exact ⟨by simp, by simp, by simp⟩
      case isFalse notFactor => exact admitted

theorem Proper.explicit {layout : Layout} {control : Control} (proper : layout.Proper)
    (reached : Control.after? layout.emitted = some control) : layout.explicit.Proper := by
  induction layout generalizing control with
  | start gap => exact ⟨proper.spaced, by simp [Layout.explicit, lexemes]⟩
  | put before lexeme gap inductionHypothesis =>
      obtain ⟨properBefore, wellFormed, isGap, admitted⟩ := proper.of_put
      obtain ⟨previous, terminal, first, known, taken⟩ := after?_put reached
      have shorter := inductionHypothesis properBefore first
      rw [Layout.explicit]
      split
      case isTrue factor =>
        rw [Lexeme.explicit, if_pos factor]
        rw [Lexeme.terminal?, factor] at known
        cases known
        have after := Control.phase_of_joint taken
        have closed := (closed_of_afterValue first after).explicit.blanks gap
        exact (shorter.blanks isGap).put ⟨.mul, rfl⟩ (by simp [IsGap]) (closed.admits (by simp))
      case isFalse notFactor => exact shorter.put wellFormed isGap (admits_explicit admitted)

/-- The sign of the last lexeme goes behind its gap. -/
theorem sign_lastToken {before : Layout} {lexeme : Lexeme} {gap : List Char}
    (wellFormed : lexeme.WellFormed) (factor : lexeme.kind = .implicitMultiply)
    (rest : List Char) :
    (before.lastToken lexeme gap).sign ((before.put lexeme gap).source ++ rest) =
      before.source ++ (gap ++ '*' :: rest) := by
  have noText := Lexeme.text_of_implicitMultiply wellFormed factor
  have place : (before.lastToken lexeme gap).span.start = (before.source ++ gap).length := by
    simp [lastToken, factor, Span.point]
  rw [Token.sign, if_pos (show (before.lastToken lexeme gap).kind = _ from factor), place, source,
    noText, List.append_nil, splice_append_right (Nat.le_refl _)]
  simp [splice]

/-- The signs go to the places of the tokens. -/
theorem signAll_source {layout : Layout} (proper : layout.Proper) (rest : List Char) :
    Token.signAll layout.emitted.reverse (layout.source ++ rest) =
      layout.explicit.source ++ rest := by
  rw [Token.signAll, List.foldr_reverse]
  induction layout generalizing rest with
  | start gap => rfl
  | put before lexeme gap inductionHypothesis =>
      obtain ⟨properBefore, wellFormed, -, -⟩ := proper.of_put
      rw [emitted_put, List.foldl_cons, explicit]
      by_cases factor : lexeme.kind = .implicitMultiply
      · rw [sign_lastToken wellFormed factor, inductionHypothesis properBefore, if_pos factor,
          Lexeme.explicit, if_pos factor, source, source_blanks]
        simp [Operator.symbol]
      · have kept (source : List Char) : (before.lastToken lexeme gap).sign source = source :=
          if_neg factor
        rw [kept, source, List.append_assoc, List.append_assoc, inductionHypothesis properBefore,
          if_neg factor, source, List.append_assoc, List.append_assoc]

end Layout

/-- A formula with a sign at each multiplication has the same tokens but for the signs, the same
trees and the same results. -/
theorem tokenize_signs (formula : String) (tokens : List Token)
    (accepted : tokenize formula = .ok tokens) :
    (∃ signed, tokenize (String.ofList (Token.signAll tokens formula.toList)) = .ok signed ∧
        signed.map Token.lexeme = tokens.map fun token => token.lexeme.explicit) ∧
      ∀ precedence,
        (∃ tree, parse precedence formula = .ok tree ∧
          parse precedence (String.ofList (Token.signAll tokens formula.toList)) = .ok tree) ∧
        compile precedence (String.ofList (Token.signAll tokens formula.toList)) =
          compile precedence formula := by
  obtain ⟨layout, proper, complete, same, rfl⟩ := exists_layout_of_tokenize accepted
  have source : layout.explicit.source =
      (String.ofList (Token.signAll layout.emitted.reverse formula.toList)).toList := by
    have signs := layout.signAll_source proper []
    rw [List.append_nil, List.append_nil, same] at signs
    rw [String.toList_ofList, signs]
  have alike : layout.explicit.lexemes.map Lexeme.explicit =
      layout.lexemes.map Lexeme.explicit := by
    rw [layout.lexemes_explicit, List.map_map]
    exact List.map_congr_left fun lexeme _ => lexeme.explicit_explicit
  obtain ⟨scanned, results⟩ :=
    Layout.respells accepted (proper.explicit complete) source alike
  refine ⟨⟨_, scanned, ?_⟩, results⟩
  rw [layout.explicit.emitted_lexemes, layout.lexemes_explicit, ← layout.emitted_lexemes,
    List.map_map]
  rfl

/-- The products have a symbol, a group and a call as their right factors. -/
def factorTokens : List Token :=
  [⟨.number, "2", ⟨0, 1⟩⟩, ⟨.implicitMultiply, "", ⟨1, 1⟩⟩, ⟨.symbol, "z", ⟨1, 2⟩⟩,
    ⟨.implicitMultiply, "", ⟨3, 3⟩⟩, ⟨.parenthesisOpen, "(", ⟨3, 4⟩⟩, ⟨.number, "3", ⟨4, 5⟩⟩,
    ⟨.parenthesisClose, ")", ⟨5, 6⟩⟩, ⟨.implicitMultiply, "", ⟨6, 6⟩⟩,
    ⟨.functionName, "sin", ⟨6, 9⟩⟩, ⟨.functionArgsStart, "(", ⟨9, 10⟩⟩,
    ⟨.symbol, "z", ⟨10, 11⟩⟩, ⟨.functionArgsEnd, ")", ⟨11, 12⟩⟩]

theorem tokenize_signs_sample :
    tokenize "2z (3)sin(z)" = .ok factorTokens ∧
      (∃ signed, tokenize "2*z *(3)*sin(z)" = .ok signed ∧
        signed.map Token.lexeme = factorTokens.map fun token => token.lexeme.explicit) ∧
      (∃ tree, parse .conventional "2z (3)sin(z)" = .ok tree ∧
        parse .conventional "2*z *(3)*sin(z)" = .ok tree) ∧
      compile .conventional "2*z *(3)*sin(z)" = compile .conventional "2z (3)sin(z)" := by
  have accepted : tokenize "2z (3)sin(z)" = .ok factorTokens := by decide +kernel
  obtain ⟨scanned, results⟩ := tokenize_signs "2z (3)sin(z)" factorTokens accepted
  have source : String.ofList (Token.signAll factorTokens "2z (3)sin(z)".toList) =
      "2*z *(3)*sin(z)" := by
    decide +kernel
  rw [source] at scanned results
  exact ⟨accepted, scanned, results .conventional⟩

end GlslFormula
