import GlslFormula.Proofs.Spelling

namespace GlslFormula

/-- A scanner in this phase may have emitted the lexeme last. -/
structure Lexeme.Awaits (last : Lexeme) (gap : List Char) (phase : ScanPhase) : Prop where
  notFunction : last.kind ≠ .functionName
  factor : last.kind = .implicitMultiply → phase = .inIdentifier
  parted : phase = .afterValue → last.kind = .symbol → gap ≠ []

namespace Layout

/-- The layout is spaced, and each lexeme is well-formed. -/
structure Proper (layout : Layout) : Prop where
  spaced : layout.Spaced
  wellFormed : ∀ lexeme ∈ layout.lexemes, lexeme.WellFormed

theorem Proper.put {before : Layout} {lexeme : Lexeme} {gap : List Char} (proper : before.Proper)
    (wellFormed : lexeme.WellFormed) (isGap : IsGap gap) (admitted : before.Admits lexeme gap) :
    (before.put lexeme gap).Proper := by
  constructor
  · exact ⟨proper.spaced, isGap, admitted⟩
  · intro other member
    rcases List.mem_append.mp member with inside | last
    · exact proper.wellFormed other inside
    · rwa [List.mem_singleton.mp last]

theorem Proper.of_put {before : Layout} {lexeme : Lexeme} {gap : List Char}
    (proper : (before.put lexeme gap).Proper) :
    before.Proper ∧ lexeme.WellFormed ∧ IsGap gap ∧ before.Admits lexeme gap := by
  obtain ⟨⟨spaced, isGap, admitted⟩, wellFormed⟩ := proper
  exact ⟨⟨spaced, fun other member => wellFormed other (by simp [lexemes, member])⟩,
    wellFormed lexeme (by simp [lexemes]), isGap, admitted⟩

theorem Proper.blank {layout : Layout} (proper : layout.Proper) {c : Char}
    (isBlank : c = ' ' ∨ c = '\t') : (layout.blank c).Proper :=
  ⟨proper.spaced.blank isBlank, by simpa using proper.wellFormed⟩

/-- A layout may end like this before the pending text of a phase. -/
def Ends : Layout → ScanPhase → Prop
  | .start _, _ => True
  | .put _ last gap, phase => last.Awaits gap phase

/-- The next lexeme may be any but a multiplication without a sign. -/
def Closed : Layout → Prop
  | .start _ => True
  | .put _ last _ => last.kind ≠ .functionName ∧ last.kind ≠ .implicitMultiply

theorem Closed.admits {layout : Layout} (closed : layout.Closed) {lexeme : Lexeme}
    {gap : List Char} (explicit : lexeme.kind ≠ .implicitMultiply) :
    layout.Admits lexeme gap := by
  cases layout with
  | start first => trivial
  | put before last lastGap =>
      obtain ⟨notFunction, notFactor⟩ := closed
      constructor
      · intro named
        exact absurd named notFunction
      · intro factor
        exact absurd factor notFactor
      · intro symbol factor
        exact absurd factor explicit

/-- A name may stand behind any lexeme but the name of a function. -/
theorem Ends.admits_name {layout : Layout} {phase : ScanPhase} (ends : layout.Ends phase)
    {lexeme : Lexeme} {gap : List Char}
    (isName : lexeme.kind ∈ [TokenKind.symbol, .functionName]) : layout.Admits lexeme gap := by
  cases layout with
  | start first => trivial
  | put before last lastGap =>
      constructor
      · intro named
        exact absurd named ends.notFunction
      · intro factor
        exact List.mem_of_mem_dropLast isName
      · intro symbol factor
        simp [factor] at isName

theorem Ends.closed {layout : Layout} {phase : ScanPhase} (ends : layout.Ends phase)
    (notName : phase ≠ .inIdentifier) : layout.Closed := by
  cases layout with
  | start gap => trivial
  | put before last gap =>
      have notFactor : last.kind ≠ .implicitMultiply := by
        intro factor
        exact notName (ends.factor factor)
      exact ⟨ends.notFunction, notFactor⟩

theorem Ends.blank {layout : Layout} {phase : ScanPhase} {c : Char} (ends : layout.Ends phase) :
    (layout.blank c).Ends phase := by
  cases layout with
  | start gap => trivial
  | put before last gap => exact ⟨ends.notFunction, ends.factor, by simp⟩

theorem Closed.ends {layout : Layout} {phase : ScanPhase} (closed : layout.Closed)
    (pending : phase ≠ .afterValue) : layout.Ends phase := by
  cases layout with
  | start gap => trivial
  | put before last gap =>
      constructor
      · exact closed.1
      · intro factor
        exact absurd factor closed.2
      · intro complete
        exact absurd complete pending

theorem Closed.ends_blank {layout : Layout} {phase : ScanPhase} {c : Char}
    (closed : layout.Closed) : (layout.blank c).Ends phase := by
  cases layout with
  | start gap => trivial
  | put before last gap =>
      constructor
      · exact closed.1
      · intro factor
        exact absurd factor closed.2
      · simp

theorem Ends.extend {layout : Layout} {phase next : ScanPhase} {charClass : CharClass}
    (ends : layout.Ends phase) (extended : phase.extension charClass = some next) :
    layout.Ends next := by
  cases layout with
  | start gap => trivial
  | put before last gap =>
      obtain ⟨pending, stays⟩ := ScanPhase.extension_next extended
      constructor
      · exact ends.notFunction
      · intro factor
        exact stays (ends.factor factor)
      · intro complete
        exact absurd complete pending

theorem Closed.emitted_blank {layout : Layout} (closed : layout.Closed) (c : Char) :
    (layout.blank c).emitted = layout.emitted := by
  cases layout with
  | start gap => rfl
  | put before last gap => simp [Layout.blank, emitted, closed.2]

end Layout

namespace Scanner

/-- The layout shows the emitted tokens. -/
def ShownBy (scanner : Scanner) (layout : Layout) : Prop :=
  layout.Proper ∧ scanner.emitted = layout.emitted

/-- An emitted token goes to the end of the layout. -/
theorem ShownBy.emit {scanner : Scanner} {layout : Layout} (shown : scanner.ShownBy layout)
    {kind : TokenKind} {text : String} (explicit : kind ≠ .implicitMultiply)
    (wellFormed : Lexeme.WellFormed ⟨kind, text⟩) (admitted : layout.Admits ⟨kind, text⟩ []) :
    (scanner.emit kind text
      ⟨layout.source.length, layout.source.length + text.length⟩).ShownBy
        (layout.put ⟨kind, text⟩ []) := by
  constructor
  · exact shown.1.put wellFormed (by simp [IsGap]) admitted
  · simp [Scanner.emit, Layout.emitted, shown.2, explicit]

theorem ShownBy.blank {scanner : Scanner} {layout : Layout} (shown : scanner.ShownBy layout)
    (closed : layout.Closed) {c : Char} (isBlank : c = ' ' ∨ c = '\t') :
    scanner.ShownBy (layout.blank c) := by
  constructor
  · exact shown.1.blank isBlank
  · rw [closed.emitted_blank]
    exact shown.2

theorem ShownBy.multiply {scanner : Scanner} {layout : Layout} (shown : scanner.ShownBy layout)
    (admitted : layout.Admits ⟨.implicitMultiply, ""⟩ []) :
    (scanner.multiply layout.source.length).ShownBy (layout.put ⟨.implicitMultiply, ""⟩ []) := by
  constructor
  · exact shown.1.put rfl (by simp [IsGap]) admitted
  · simp [Scanner.multiply, Scanner.emit, Layout.emitted, shown.2]

/-- The layout and the pending text are what was consumed. -/
structure Covers (scanner : Scanner) (consumed : List Char) (layout : Layout)
    (text : List Char) : Prop where
  shown : scanner.ShownBy layout
  read : layout.source ++ text = consumed
  holds : scanner.phase.Holds text
  buffered : text ≠ [] →
    scanner.buffer = String.ofList text ∧ scanner.bufferStart = layout.source.length
  ends : layout.Ends scanner.phase

theorem start_covers : start.Covers [] (.start []) [] where
  shown := ⟨⟨by simp [Layout.Spaced, IsGap], by simp [Layout.lexemes]⟩, rfl⟩
  read := rfl
  holds := rfl
  buffered := by simp
  ends := trivial

/-- The pending text becomes the last lexeme of the layout. -/
theorem Covers.flush {scanner : Scanner} {consumed : List Char} {layout : Layout}
    {text : List Char} (covers : scanner.Covers consumed layout text) (kind : TokenKind)
    (held : text ≠ []) (explicit : kind ≠ .implicitMultiply)
    (wellFormed : Lexeme.WellFormed ⟨kind, String.ofList text⟩)
    (admitted : layout.Admits ⟨kind, String.ofList text⟩ []) :
    (scanner.flush kind consumed.length).ShownBy (layout.put ⟨kind, String.ofList text⟩ []) ∧
      (layout.put ⟨kind, String.ofList text⟩ []).source = consumed := by
  obtain ⟨buffer, bufferStart⟩ := covers.buffered held
  have length : consumed.length = layout.source.length + (String.ofList text).length := by
    rw [← covers.read]
    simp
  constructor
  · have emitted := covers.shown.emit explicit wellFormed admitted
    rw [ShownBy, Scanner.flush, buffer, bufferStart, length]
    exact emitted
  · simpa [Layout.source] using covers.read

/-- The layout shows all that was consumed, and it ends with a value. -/
structure Settles (scanner : Scanner) (consumed : List Char) (settled : Layout) : Prop where
  shown : (scanner.ready consumed.length).ShownBy settled
  read : settled.source = consumed
  closed : settled.Closed
  parted : scanner.phase ≠ .inIdentifier → settled.Admits ⟨.implicitMultiply, ""⟩ []

section Settling

variable {scanner : Scanner} {consumed text : List Char} {layout : Layout}

theorem Covers.settlesValue (covers : scanner.Covers consumed layout text)
    (last : scanner.phase = .afterValue) : scanner.Settles consumed layout where
  shown := by
    have shown := covers.shown
    rw [ShownBy] at shown ⊢
    rwa [Scanner.ready, settle, last]
  read := by
    have holds := covers.holds
    rw [last] at holds
    rw [← covers.read, show text = [] from holds, List.append_nil]
  closed := covers.ends.closed (by rw [last]; simp)
  parted := by
    intro notName
    cases layout with
    | start gap => trivial
    | put before lexeme gap =>
        obtain ⟨notFunction, inName, symbolGap⟩ := covers.ends
        constructor
        · intro named
          exact absurd named notFunction
        · intro factor
          exact absurd (inName factor) notName
        · intro symbol factor
          rw [List.append_nil]
          exact symbolGap last symbol

theorem Covers.settlesSymbol (covers : scanner.Covers consumed layout text)
    (last : scanner.phase = .inIdentifier) :
    scanner.Settles consumed (layout.put ⟨.symbol, String.ofList text⟩ []) := by
  have holds := covers.holds
  rw [last] at holds
  have wellFormed : Lexeme.WellFormed ⟨.symbol, String.ofList text⟩ := by
    simpa [Lexeme.WellFormed, ScanPhase.Holds] using holds
  obtain ⟨shown, read⟩ := covers.flush .symbol (holds.ne_nil (by simp) (by simp)) (by simp)
    wellFormed (covers.ends.admits_name (by simp))
  constructor
  · rw [ShownBy] at shown ⊢
    rwa [Scanner.ready, settle, last]
  · exact read
  · exact ⟨by simp, by simp⟩
  · intro notName
    exact absurd last notName

theorem Covers.settlesNumber (covers : scanner.Covers consumed layout text)
    (last : scanner.phase = .inInteger ∨ scanner.phase = .inDecimal) :
    scanner.Settles consumed (layout.put ⟨.number, String.ofList text⟩ []) := by
  have notName : scanner.phase ≠ .inIdentifier := by
    rcases last with last | last <;> simp [last]
  have held : text ≠ [] := by
    rcases last with last | last <;>
      exact covers.holds.ne_nil (by rw [last]; simp) (by rw [last]; simp)
  have wellFormed : Lexeme.WellFormed ⟨.number, String.ofList text⟩ := by
    have holds := covers.holds
    rw [Lexeme.WellFormed, String.toList_ofList]
    rcases last with last | last
    · rw [last] at holds
      exact .inl holds
    · rw [last] at holds
      exact .inr holds
  have admitted : layout.Admits ⟨.number, String.ofList text⟩ [] :=
    (covers.ends.closed notName).admits (by simp)
  obtain ⟨shown, read⟩ := covers.flush .number held (by simp) wellFormed admitted
  constructor
  · rw [ShownBy] at shown ⊢
    rcases last with last | last <;> rwa [Scanner.ready, settle, last]
  · exact read
  · exact ⟨by simp, by simp⟩
  · intro notName
    exact ⟨by simp, by simp, by simp⟩

/-- A complete value leaves a layout of all that was consumed. -/
theorem Covers.settles (covers : scanner.Covers consumed layout text)
    (complete : scanner.phase.isComplete = true) : ∃ settled, scanner.Settles consumed settled := by
  cases last : scanner.phase with
  | expectValue => simp [last, ScanPhase.isComplete] at complete
  | afterSign => simp [last, ScanPhase.isComplete] at complete
  | afterValue => exact ⟨_, covers.settlesValue last⟩
  | inIdentifier => exact ⟨_, covers.settlesSymbol last⟩
  | inInteger => exact ⟨_, covers.settlesNumber (.inl last)⟩
  | inDecimal => exact ⟨_, covers.settlesNumber (.inr last)⟩

end Settling

/-- A sign, a bracket or a comma goes to the end of the layout. -/
theorem ShownBy.covers {scanner next : Scanner} {layout : Layout} {consumed : List Char} {c : Char}
    (shown : scanner.ShownBy layout) (read : layout.source = consumed) (kind : TokenKind)
    (wellFormed : Lexeme.WellFormed ⟨kind, c.toString⟩)
    (plain : kind ∉ [TokenKind.symbol, .functionName, .implicitMultiply])
    (admitted : layout.Admits ⟨kind, c.toString⟩ [])
    (emitted : next.emitted = ⟨kind, c.toString, .single consumed.length⟩ :: scanner.emitted)
    (empty : next.phase.Holds []) : ∃ wider rest, next.Covers (consumed ++ [c]) wider rest := by
  simp only [List.mem_cons, List.not_mem_nil, or_false, not_or] at plain
  obtain ⟨notSymbol, notFunction, explicit⟩ := plain
  have wider := shown.emit explicit wellFormed admitted
  have same : next.emitted = (layout.put ⟨kind, c.toString⟩ []).emitted := by
    rw [emitted, ← wider.2, read]
    simp [Scanner.emit, Span.single]
  have consumes : (layout.put ⟨kind, c.toString⟩ []).source ++ [] = consumed ++ [c] := by
    simp [Layout.source, read]
  have ends : (layout.put ⟨kind, c.toString⟩ []).Ends next.phase := by
    constructor
    · exact notFunction
    · intro factor
      exact absurd factor explicit
    · intro complete symbol
      exact absurd symbol notSymbol
  exact ⟨_, [], ⟨wider.1, same⟩, consumes, empty, by simp, ends⟩

/-- Each step consumes its character. -/
theorem Covers.step {scanner next : Scanner} {consumed text : List Char} {layout : Layout}
    {c : Char} (covers : scanner.Covers consumed layout text)
    (taken : scanner.Steps consumed.length c next) :
    ∃ wider rest, next.Covers (consumed ++ [c]) wider rest := by
  have spec := CharClass.ofChar_spec c
  have fresh (atStart : scanner.phase = .expectValue) : text = [] := by
    have holds := covers.holds
    rwa [atStart] at holds
  cases taken with
  | skip blank atStart =>
      have isBlank : c = ' ' ∨ c = '\t' := by simpa [blank, CharClass.members] using spec
      have closed := covers.ends.closed (by rw [atStart]; simp)
      obtain rfl := fresh atStart
      have read : (layout.blank c).source ++ [] = consumed ++ [c] := by simp [← covers.read]
      exact ⟨_, [], covers.shown.blank closed isBlank, read, covers.holds, by simp,
        covers.ends.blank⟩
  | rest blank complete =>
      have isBlank : c = ' ' ∨ c = '\t' := by simpa [blank, CharClass.members] using spec
      obtain ⟨settled, settles⟩ := covers.settles complete
      have read : (settled.blank c).source ++ [] = consumed ++ [c] := by simp [settles.read]
      exact ⟨_, [], settles.shown.blank settles.closed isBlank, read, rfl, by simp,
        settles.closed.ends_blank⟩
  | extend phase extended =>
      obtain ⟨started, pending⟩ := ScanPhase.ne_of_extension extended
      obtain ⟨buffer, bufferStart⟩ := covers.buffered (covers.holds.ne_nil started pending)
      have read : layout.source ++ (text ++ [c]) = consumed ++ [c] := by
        rw [← covers.read, List.append_assoc]
      exact ⟨layout, text ++ [c], covers.shown, read, covers.holds.extend extended,
        fun _ => by simp [Scanner.extend, buffer, bufferStart], covers.ends.extend extended⟩
  | begin phase atStart begun =>
      obtain rfl := fresh atStart
      have closed := covers.ends.closed (by rw [atStart]; simp)
      have read : layout.source ++ [c] = consumed ++ [c] := by
        rw [← covers.read, List.append_nil]
      exact ⟨layout, [c], covers.shown, read, ScanPhase.holds_singleton begun,
        fun _ => by simp [Scanner.begin, ← covers.read],
        closed.ends (ScanPhase.ne_afterValue_of_beginning begun)⟩
  | factor letter complete notName =>
      obtain ⟨settled, settles⟩ := covers.settles complete
      have shown := settles.shown.multiply (settles.parted notName)
      rw [settles.read] at shown
      have holds : ScanPhase.inIdentifier.Holds [c] :=
        ScanPhase.holds_singleton (by rw [letter]; rfl)
      have read : (settled.put ⟨.implicitMultiply, ""⟩ []).source ++ [c] = consumed ++ [c] := by
        simp [Layout.source, settles.read]
      exact ⟨_, [c], shown, read, holds,
        fun _ => by simp [Scanner.begin, Layout.source, settles.read],
        ⟨by simp, fun _ => rfl, by simp⟩⟩
  | sign isSign complete =>
      obtain ⟨settled, settles⟩ := covers.settles complete
      exact settles.shown.covers settles.read .operator (CharClass.exists_symbol_eq isSign)
        (by simp) (settles.closed.admits (by simp)) rfl rfl
  | comma isComma complete inside =>
      obtain rfl : c = ',' := by simpa [isComma, CharClass.members] using spec
      obtain ⟨settled, settles⟩ := covers.settles complete
      exact settles.shown.covers settles.read .argSeparator rfl (by simp)
        (settles.closed.admits (by simp)) rfl rfl
  | group isOpen atStart =>
      obtain rfl : c = '(' := by simpa [isOpen, CharClass.members] using spec
      obtain rfl := fresh atStart
      have read := covers.read
      rw [List.append_nil] at read
      have closed := covers.ends.closed (by rw [atStart]; simp)
      exact covers.shown.covers read .parenthesisOpen rfl (by simp) (closed.admits (by simp)) rfl
        rfl
  | call isOpen named =>
      obtain rfl : c = '(' := by simpa [isOpen, CharClass.members] using spec
      have holds := covers.holds
      rw [named] at holds
      have wellFormed : Lexeme.WellFormed ⟨.functionName, String.ofList text⟩ := by
        simpa [Lexeme.WellFormed, ScanPhase.Holds] using holds
      obtain ⟨shown, read⟩ := covers.flush .functionName (holds.ne_nil (by simp) (by simp))
        (by simp) wellFormed (covers.ends.admits_name (by simp))
      exact shown.covers read .functionArgsStart rfl (by simp) ⟨by simp, by simp, by simp⟩ rfl rfl
  | product isOpen complete notName =>
      obtain rfl : c = '(' := by simpa [isOpen, CharClass.members] using spec
      obtain ⟨settled, settles⟩ := covers.settles complete
      have shown := settles.shown.multiply (settles.parted notName)
      rw [settles.read] at shown
      have read : (settled.put ⟨.implicitMultiply, ""⟩ []).source = consumed := by
        simpa [Layout.source] using settles.read
      exact shown.covers read .parenthesisOpen rfl (by simp) ⟨by simp, by simp, by simp⟩ rfl rfl
  | close isClose complete bracket outer opened =>
      obtain rfl : c = ')' := by simpa [isClose, CharClass.members] using spec
      obtain ⟨settled, settles⟩ := covers.settles complete
      cases bracket with
      | group =>
          exact settles.shown.covers settles.read .parenthesisClose rfl (by simp)
            (settles.closed.admits (by simp)) rfl rfl
      | arguments =>
          exact settles.shown.covers settles.read .functionArgsEnd rfl (by simp)
            (settles.closed.admits (by simp)) rfl rfl

/-- Each run consumes its characters. -/
theorem Covers.run {scanner last : Scanner} {consumed text formula : List Char} {layout : Layout}
    (covers : scanner.Covers consumed layout text)
    (taken : scanner.read consumed.length formula = (last, none)) :
    ∃ wider rest, last.Covers (consumed ++ formula) wider rest := by
  induction formula generalizing scanner consumed text layout with
  | nil =>
      cases taken
      exact ⟨layout, text, by simpa using covers⟩
  | cons c rest inductionHypothesis =>
      obtain ⟨next, moved, remaining⟩ := steps_of_read taken
      obtain ⟨wider, pending, covered⟩ := covers.step moved
      have whole := inductionHypothesis covered (by simpa using remaining)
      simpa using whole

end Scanner

end GlslFormula
