import GlslFormula.Proofs.InPlace
import GlslFormula.Proofs.ScanStep

namespace GlslFormula

section Calls

variable {Failure State Call : Type} {action : Call → EStateM Failure State Unit} {state : State}
  {calls : List Call}

/-- The calls are made in order. Each of them starts from what the one before it left, also when
that one failed. -/
def leaveEach (action : Call → EStateM Failure State Unit) (state : State) (calls : List Call) :
    State :=
  calls.foldl (fun state call => remains (action call state)) state

/-- These are the calls that do not fail. -/
def takenFrom (action : Call → EStateM Failure State Unit) : State → List Call → List Call
  | _, [] => []
  | state, call :: rest =>
      match action call state with
      | .ok _ next => call :: takenFrom action next rest
      | .error _ left => takenFrom action left rest

/-- The calls are made in order, up to the first one that fails. -/
def callEach (action : Call → EStateM Failure State Unit) : List Call → EStateM Failure State Unit
  | [] => return
  | call :: rest => do
      action call
      callEach action rest

/-- When no failure leaves a trace, the calls that do not fail lead to the same state alone. -/
theorem callEach_takenFrom
    (atomic : ∀ call ∈ calls, ∀ state failure left,
      action call state = .error failure left → left = state) :
    callEach action (takenFrom action state calls) state =
      .ok () (leaveEach action state calls) := by
  induction calls generalizing state with
  | nil => rfl
  | cons call rest inductionHypothesis =>
      have others := fun other member => atomic other (List.mem_cons_of_mem call member)
      rw [takenFrom, leaveEach, List.foldl_cons]
      cases made : action call state with
      | ok value next => exact (bind_of_ok made).trans (inductionHypothesis others)
      | error failure left =>
          rw [remains, atomic call (List.mem_cons_self ..) state failure left made]
          exact inductionHypothesis others

end Calls

namespace Scanner

/-- A character in place is refused by a rule, or it closes a bracket that was never opened, or it
stands where positions end. -/
inductive Failure where
  | refused (error : ScanError)
  | unopened (error : ScanError)
  | overflow (index : Nat)
deriving DecidableEq

/-- An update changes the scanner step by step. -/
abbrev Update := EStateM Failure Scanner

namespace Update

def push (kind : TokenKind) (text : String) (span : Span) : Update Unit := do
  set ((← get).emit kind text span)

/-- Positions are machine words, so a token of one character may not fit. -/
def single (index : Nat) : Update Span :=
  match Span.single? index with
  | some span => return span
  | none => throw (.overflow index)

def begin (index : Nat) (c : Char) : Update Unit := do
  set { (← get) with buffer := c.toString }
  set { (← get) with bufferStart := index }

def extend (c : Char) : Update Unit := do
  let scanner ← get
  set { scanner with buffer := scanner.buffer.push c }

/-- The pending text is taken before the token is written. -/
def flush (kind : TokenKind) (stop : Nat) : Update Unit := do
  let text := (← get).buffer
  set { (← get) with buffer := "" }
  push kind text ⟨(← get).bufferStart, stop⟩

/-- A pending literal or name is written as a value. -/
def settle (phase : ScanPhase) (stop : Nat) : Update Unit :=
  match phase with
  | .inInteger | .inDecimal => flush .number stop
  | .inIdentifier => flush .symbol stop
  | .expectValue | .afterSign | .afterValue => return

def multiply (index : Nat) : Update Unit := push .implicitMultiply "" (.point index)

def separate (kind : TokenKind) (index : Nat) (c : Char) : Update Unit := do
  push kind c.toString (← single index)

/-- The bracket is open before its token is written. -/
def openBracket (bracket : Bracket) (index : Nat) : Update Unit := do
  let scanner ← get
  set { scanner with brackets := bracket :: scanner.brackets }
  push bracket.openKind "(" (← single index)

/-- The bracket is gone before its token is written. -/
def closeBracket (index : Nat) (c : Char) : Update Unit := do
  let scanner ← get
  match scanner.brackets with
  | [] => throw (.unopened ⟨some c, index, .unmatchedClosing⟩)
  | bracket :: outer =>
      set { scanner with brackets := outer }
      push bracket.closeKind ")" (← single index)

def refuse (index : Nat) (c : Char) (reason : ScanReason) : Update ScanPhase :=
  throw (.refused ⟨some c, index, reason⟩)

/-- The result is the next phase, which is not yet written. -/
def transition (index : Nat) (c : Char) : ScanPhase → CharClass → Update ScanPhase
  | .afterSign, .digit => do
      extend c
      return .inInteger
  | .afterSign, _ => refuse index c .danglingSign
  | .expectValue, .space => return .expectValue
  | phase, .space => do
      settle phase index
      return .afterValue
  | .expectValue, .digit => do
      begin index c
      return .inInteger
  | .afterValue, .digit => refuse index c .invalidAfterValue
  | phase, .digit => do
      extend c
      return phase
  | .expectValue, .letter => do
      begin index c
      return .inIdentifier
  | .inIdentifier, .letter | .inIdentifier, .underscore => do
      extend c
      return .inIdentifier
  | phase, .letter => do
      settle phase index
      multiply index
      begin index c
      return .inIdentifier
  | .inInteger, .dot => do
      extend c
      return .inDecimal
  | _, .dot => refuse index c .misplacedPoint
  | .expectValue, .comma => refuse index c .incompleteArgument
  | phase, .comma => do
      settle phase index
      separate .argSeparator index c
      return .expectValue
  | .expectValue, .minus => do
      begin index c
      return .afterSign
  | .expectValue, .operator => refuse index c .expectedValue
  | phase, .minus | phase, .operator => do
      settle phase index
      separate .operator index c
      return .expectValue
  | .expectValue, .openParen => do
      openBracket .group index
      return .expectValue
  | .inIdentifier, .openParen => do
      flush .functionName index
      openBracket .arguments index
      return .expectValue
  | phase, .openParen => do
      settle phase index
      multiply index
      openBracket .group index
      return .expectValue
  | .expectValue, .closeParen => refuse index c .expectedValue
  | phase, .closeParen => do
      settle phase index
      closeBracket index c
      return .afterValue
  | phase, .underscore | phase, .other => refuse index c phase.complaint

/-- The phase is written last. -/
def step (index : Nat) (c : Char) : Update Unit := do
  let scanner ← get
  match scanner.bracketComplaint? (CharClass.ofChar c) with
  | some reason => throw (.refused ⟨some c, index, reason⟩)
  | none =>
      let phase ← transition index c scanner.phase (CharClass.ofChar c)
      set { (← get) with phase := phase }

/-- A call names a character and its position. -/
def read (call : Nat × Char) : Update Unit := step call.1 call.2

/-- A pending value is written before the open brackets are counted. -/
def finish (length : Nat) : Update Unit := do
  let scanner ← get
  match scanner.phase with
  | .expectValue => throw (.refused ⟨none, length, .incompleteExpression⟩)
  | .afterSign => throw (.refused ⟨none, length, .danglingSign⟩)
  | phase =>
      settle phase length
      set { (← get) with phase := .afterValue }
      if (← get).brackets.isEmpty then return
      else throw (.refused ⟨none, length, .unclosedGroup (← get).openGroups⟩)

end Update

variable {scanner next : Scanner} {index : Nat} {c : Char}

theorem single_inPlace (scanner : Scanner) (inside : index + 1 < wordCount) :
    Update.single index scanner = .ok (.single index) scanner := by
  rw [Update.single, Span.single?, if_pos inside]
  rfl

theorem settle_inPlace (scanner : Scanner) (stop : Nat) :
    Update.settle scanner.phase stop scanner = .ok () (scanner.settle stop) := by
  obtain ⟨phase, brackets, buffer, bufferStart, emitted⟩ := scanner
  cases phase <;> rfl

theorem separate_inPlace (scanner : Scanner) (kind : TokenKind) (c : Char)
    (inside : index + 1 < wordCount) :
    Update.separate kind index c scanner = .ok () (scanner.emit kind c.toString (.single index)) :=
  bind_of_ok (single_inPlace scanner inside)

theorem openBracket_inPlace (scanner : Scanner) (bracket : Bracket)
    (inside : index + 1 < wordCount) :
    Update.openBracket bracket index scanner =
      .ok () { scanner.openBracket bracket index with phase := scanner.phase } :=
  bind_of_ok (single_inPlace { scanner with brackets := bracket :: scanner.brackets } inside)

theorem closeBracket_inPlace {bracket : Bracket} {outer : List Bracket} (c : Char)
    (opened : scanner.brackets = bracket :: outer) (inside : index + 1 < wordCount) :
    Update.closeBracket index c scanner =
      .ok () { scanner.leave bracket outer index with phase := scanner.phase } := by
  obtain ⟨phase, brackets, buffer, bufferStart, emitted⟩ := scanner
  obtain rfl : brackets = bracket :: outer := opened
  exact bind_of_ok (single_inPlace ⟨phase, outer, buffer, bufferStart, emitted⟩ inside)

/-- Each rule is followed in place. Only its phase is not yet written. -/
theorem transition_inPlace (steps : scanner.Steps index c next) (inside : index + 1 < wordCount) :
    Update.transition index c scanner.phase (CharClass.ofChar c) scanner =
      .ok next.phase { next with phase := scanner.phase } := by
  have settled := scanner.settle_inPlace index
  obtain ⟨phase, brackets, buffer, bufferStart, emitted⟩ := scanner
  cases steps with
  | skip blank atStart =>
      subst atStart
      rw [blank]
      rfl
  | rest blank complete =>
      rw [blank]
      cases phase <;> simp [ScanPhase.isComplete] at complete <;> rfl
  | extend next extended =>
      cases phase <;> cases same : CharClass.ofChar c <;>
        simp [ScanPhase.extension, same] at extended <;> subst extended <;> rfl
  | begin next atStart begun =>
      subst atStart
      cases same : CharClass.ofChar c <;> simp [CharClass.beginning, same] at begun <;>
        subst begun <;> rfl
  | factor letter complete notName =>
      rw [letter]
      cases phase <;> simp [ScanPhase.isComplete] at complete notName <;> rfl
  | sign isSign complete =>
      cases same : CharClass.ofChar c <;> simp [CharClass.isOperator, same] at isSign <;>
        cases phase <;> simp [ScanPhase.isComplete] at complete <;>
          exact (bind_of_ok settled).trans (bind_of_ok (separate_inPlace _ .operator c inside))
  | comma isComma complete allowed =>
      rw [isComma]
      cases phase <;> simp [ScanPhase.isComplete] at complete <;>
        exact (bind_of_ok settled).trans (bind_of_ok (separate_inPlace _ .argSeparator c inside))
  | group isOpen atStart =>
      subst atStart
      rw [isOpen]
      exact bind_of_ok (openBracket_inPlace _ .group inside)
  | call isOpen named =>
      subst named
      rw [isOpen]
      exact bind_of_ok (openBracket_inPlace _ .arguments inside)
  | product isOpen complete notName =>
      rw [isOpen]
      cases phase <;> simp [ScanPhase.isComplete] at complete notName <;>
        exact (bind_of_ok settled).trans (bind_of_ok (openBracket_inPlace _ .group inside))
  | close isClose complete bracket outer opened =>
      rw [isClose]
      cases phase <;> simp [ScanPhase.isComplete] at complete <;>
        exact (bind_of_ok settled).trans (bind_of_ok (closeBracket_inPlace c opened inside))

/-- A refused character finds nothing written. Its bracket is open, so it is refused before the
bracket is closed. -/
theorem transition_refused {reason : ScanReason}
    (allowed : scanner.bracketComplaint? (CharClass.ofChar c) = none)
    (refused : scanner.transition index c = .error reason) :
    Update.transition index c scanner.phase (CharClass.ofChar c) scanner =
      .error (.refused ⟨some c, index, reason⟩) scanner := by
  obtain ⟨phase, brackets, buffer, bufferStart, emitted⟩ := scanner
  cases same : CharClass.ofChar c with
  | closeParen =>
      cases brackets with
      | nil => simp [bracketComplaint?, same] at allowed
      | cons bracket outer =>
          cases phase <;> simp [transition, same, closeBracket?] at refused <;> subst refused <;>
            rfl
  | _ =>
      cases phase <;> simp [transition, same] at refused <;> subst refused <;> rfl

/-- A character is read or refused as its rule says. -/
def attempt (scanner : Scanner) (index : Nat) (c : Char) : Except Failure (Unit × Scanner) :=
  ((scanner.step index c).mapError Failure.refused).map fun next => ((), next)

/-- Only the brackets are looked at before the transition. -/
theorem step_of_allowed (allowed : scanner.bracketComplaint? (CharClass.ofChar c) = none) :
    Update.step index c scanner =
      (Update.transition index c scanner.phase (CharClass.ofChar c) >>= fun phase => do
        set { (← get) with phase := phase }) scanner := by
  have found : (get : Update Scanner) scanner = .ok scanner scanner := rfl
  rw [Update.step, bind_of_ok found, allowed]

/-- A character in place does what its rule does, and nothing if it is refused. -/
theorem step_inPlace (scanner : Scanner) (c : Char) (inside : index + 1 < wordCount) :
    Update.step index c scanner = transact scanner (scanner.attempt index c) := by
  rw [attempt]
  cases result : scanner.step index c with
  | ok next =>
      obtain ⟨allowed, -⟩ := transition_of_step result
      rw [step_of_allowed allowed]
      rw [bind_of_ok (transition_inPlace (steps_of_step result) inside)]
      rfl
  | error error =>
      rw [step] at result
      split at result
      case h_1 reason complaint =>
        cases result
        have found : (get : Update Scanner) scanner = .ok scanner scanner := rfl
        rw [Update.step, bind_of_ok found, complaint]
        rfl
      case h_2 allowed =>
        rw [step_of_allowed allowed]
        cases moved : scanner.transition index c with
        | ok next => simp [moved, Except.mapError] at result
        | error reason =>
            rw [moved] at result
            cases result
            exact bind_of_error (transition_refused allowed moved)

/-- The end of a formula may fail behind a value that it has written. -/
def ended : Scanner × Option ScanError → EStateM.Result Failure Scanner Unit
  | (last, none) => .ok () last
  | (last, some error) => .error (.refused error) last

theorem finish_inPlace (scanner : Scanner) (length : Nat) :
    Update.finish length scanner = ended (scanner.finish length) := by
  obtain ⟨phase, brackets, buffer, bufferStart, emitted⟩ := scanner
  cases phase <;> cases brackets <;> rfl

/-- A refusal comes from a rule and leaves nothing behind. -/
theorem refused_of_step {failure : Failure} {left : Scanner} (inside : index + 1 < wordCount)
    (failed : Update.step index c scanner = .error failure left) :
    left = scanner ∧
      ∃ error, failure = .refused error ∧ scanner.step index c = .error error := by
  rw [step_inPlace scanner c inside, attempt] at failed
  refine ⟨eq_of_transact_error failed, ?_⟩
  cases result : scanner.step index c with
  | ok next =>
      rw [result] at failed
      cases failed
  | error error =>
      rw [result] at failed
      cases failed
      exact ⟨error, rfl, rfl⟩

/-- A closing parenthesis that the open brackets allow has a bracket to close. -/
theorem closeBracket?_of_allowed (allowed : scanner.bracketComplaint? .closeParen = none) :
    ∃ closed, (scanner.settle index).closeBracket? index = some closed := by
  cases opened : scanner.brackets with
  | nil => simp [bracketComplaint?, opened] at allowed
  | cons bracket outer =>
      rw [closeBracket?, settle_brackets, opened]
      exact ⟨_, rfl⟩

/-- From any scanner, a character in place is read or refused as its rule says. No refusal comes
from a bracket that was never opened, and a refusal leaves the whole scanner as it was. So reading
can go on behind refusals. The calls that are not refused lead to the same scanner on their own, and
the formula ends in the same way behind both. -/
theorem step_resumes (scanner : Scanner) (calls : List (Nat × Char))
    (positions : ∀ call ∈ calls, call.1 + 1 < wordCount) :
    (∀ index c, index + 1 < wordCount →
      Update.step index c scanner = transact scanner (scanner.attempt index c) ∧
        (scanner.bracketComplaint? .closeParen = none →
          ∃ closed, (scanner.settle index).closeBracket? index = some closed) ∧
        ∀ failure left, Update.step index c scanner = .error failure left →
          left = scanner ∧
            ∃ error, failure = .refused error ∧ scanner.step index c = .error error) ∧
      callEach Update.read (takenFrom Update.read scanner calls) scanner =
        .ok () (leaveEach Update.read scanner calls) ∧
      ∀ length,
        Update.finish length (leaveEach Update.read scanner calls) =
            ended ((leaveEach Update.read scanner calls).finish length) ∧
          (callEach Update.read (takenFrom Update.read scanner calls) >>= fun _ =>
              Update.finish length) scanner =
            Update.finish length (leaveEach Update.read scanner calls) := by
  have run : callEach Update.read (takenFrom Update.read scanner calls) scanner =
      .ok () (leaveEach Update.read scanner calls) := by
    apply callEach_takenFrom
    intro call member state failure left failed
    exact (refused_of_step (positions call member) failed).1
  refine ⟨?_, run, ?_⟩
  · intro index c inside
    refine ⟨step_inPlace scanner c inside, closeBracket?_of_allowed, ?_⟩
    intro failure left failed
    exact refused_of_step inside failed
  · intro length
    exact ⟨finish_inPlace _ length, bind_of_ok run⟩

/-- A name is pending in a group. -/
def namedScanner : Scanner := ⟨.inIdentifier, [.group], "ab", 2, []⟩

/-- The group takes no comma, the name takes no percent sign, and the second bracket closes
nothing. -/
theorem step_resumes_sample :
    (∀ call ∈ [(4, ','), (4, '%'), (4, ')'), (5, ')'), (5, '+')], call.1 + 1 < wordCount) ∧
      Update.step 4 ',' namedScanner =
        .error (.refused ⟨some ',', 4, .commaOutsideArguments⟩) namedScanner ∧
      takenFrom Update.read namedScanner [(4, ','), (4, '%'), (4, ')'), (5, ')'), (5, '+')] =
        [(4, ')'), (5, '+')] ∧
      callEach Update.read [(4, ')'), (5, '+')] namedScanner =
        .ok () (leaveEach Update.read namedScanner
          [(4, ','), (4, '%'), (4, ')'), (5, ')'), (5, '+')]) := by
  have positions : ∀ call ∈ [(4, ','), (4, '%'), (4, ')'), (5, ')'), (5, '+')],
      call.1 + 1 < wordCount := by
    decide
  obtain ⟨single, together, -⟩ := step_resumes namedScanner _ positions
  have taken : takenFrom Update.read namedScanner
      [(4, ','), (4, '%'), (4, ')'), (5, ')'), (5, '+')] = [(4, ')'), (5, '+')] := by
    decide +kernel
  have refused : namedScanner.attempt 4 ',' =
      .error (.refused ⟨some ',', 4, .commaOutsideArguments⟩) := by
    rfl
  have first := (single 4 ',' (by decide)).1
  rw [refused] at first
  rw [taken] at together
  exact ⟨positions, first, taken, together⟩

end Scanner

end GlslFormula
