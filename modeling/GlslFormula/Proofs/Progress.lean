import GlslFormula.Proofs.Position

namespace GlslFormula

open Grammar

/-- A mark is what a token leaves in the tree. -/
inductive Mark where
  | number (text : String)
  | symbol (text : String)
  | operator (operator : Operator)
  | call (name : String)
deriving DecidableEq

namespace Mark

def kind : Mark → NodeKind
  | .number _ => .number
  | .symbol _ => .symbol
  | .operator _ => .operation
  | .call _ => .operation

def text : Mark → String
  | .number text => text
  | .symbol text => text
  | .operator sign => sign.symbol
  | .call name => name

end Mark

/-- Brackets and commas leave no mark. -/
def Grammar.Terminal.mark? : Terminal → Option Mark
  | .number text => some (.number text)
  | .symbol text => some (.symbol text)
  | .joint between => some (.operator between.operator)
  | .name text => some (.call text)
  | .groupOpen | .groupClose | .argumentsOpen | .argumentsClose | .comma => none

def Token.mark? (token : Token) : Option Mark := token.lexeme.terminal?.bind Terminal.mark?

namespace Expression

mutual

/-- The marks of an expression in source order. -/
def marks : Expression → List Mark
  | .number text => [.number text]
  | .symbol text => [.symbol text]
  | .operator sign left right => left.marks ++ .operator sign :: right.marks
  | .call name arguments => .call name :: marksAll arguments

def marksAll : List Expression → List Mark
  | [] => []
  | expression :: rest => expression.marks ++ marksAll rest

end

theorem marksAll_append (first second : List Expression) :
    marksAll (first ++ second) = marksAll first ++ marksAll second := by
  induction first with
  | nil => rfl
  | cons expression rest inductionHypothesis =>
      rw [List.cons_append, marksAll, marksAll, inductionHypothesis, List.append_assoc]

mutual

/-- Each node has one mark. -/
@[simp] theorem length_marks (expression : Expression) :
    expression.marks.length = expression.size := by
  cases expression with
  | number text => rfl
  | symbol text => rfl
  | operator operator left right =>
      rw [marks, List.length_append, List.length_cons, left.length_marks, right.length_marks, size]
      omega
  | call name arguments =>
      rw [marks, List.length_cons, length_marksAll arguments, size, Nat.add_comm]

@[simp] theorem length_marksAll (expressions : List Expression) :
    (marksAll expressions).length = sizeAll expressions := by
  cases expressions with
  | nil => rfl
  | cons expression rest =>
      rw [marksAll, List.length_append, expression.length_marks, length_marksAll rest, sizeAll]

end

end Expression

namespace Context

/-- The marks to the left of the value that comes next. -/
def marks : Context → List Mark
  | .whole => []
  | .operand operator left outer => outer.marks ++ (left.marks ++ [.operator operator])
  | .group outer => outer.marks
  | .argument name earlier outer => outer.marks ++ .call name :: Expression.marksAll earlier

theorem next_eq (context : Context) : context.next = 1 + context.marks.length := by
  induction context with
  | whole => rfl
  | operand operator left outer inductionHypothesis =>
      simp only [next, marks, inductionHypothesis, List.length_append, left.length_marks,
        List.length_singleton]
      omega
  | group outer inductionHypothesis => exact inductionHypothesis
  | argument name earlier outer inductionHypothesis =>
      simp only [next, marks, inductionHypothesis, List.length_append, List.length_cons,
        Expression.length_marksAll]
      omega

/-- A climb moves the border between the value and its context, and no mark. -/
theorem marks_climb (precedence : Precedence) (incoming : Operator) (context : Context)
    (value : Expression) :
    (context.climb precedence incoming value).1.marks ++
        (context.climb precedence incoming value).2.marks =
      context.marks ++ value.marks := by
  induction context generalizing value with
  | operand operator left outer inductionHypothesis =>
      rw [climb]
      split
      · rw [inductionHypothesis]
        simp [marks, Expression.marks]
      · rfl
  | _ => rfl

theorem marks_collapse (context : Context) (value : Expression) :
    (context.collapse value).1.marks ++ (context.collapse value).2.marks =
      context.marks ++ value.marks := by
  induction context generalizing value with
  | operand operator left outer inductionHypothesis =>
      rw [collapse, inductionHypothesis]
      simp [marks, Expression.marks]
  | _ => rfl

end Context

namespace Position

variable {precedence : Precedence} {position next : Position} {terminal : Terminal}

/-- The marks of all that was read. -/
def marks : Position → List Mark
  | .expects context => context.marks
  | .named name outer => (Context.argument name [] outer).marks
  | .behind context value => context.marks ++ value.marks

/-- A terminal adds its mark at the right end. -/
theorem Leads.marks (leads : position.Leads precedence terminal next) :
    next.marks = position.marks ++ terminal.mark?.toList := by
  cases leads with
  | number | symbol | name => rfl
  | groupOpen | argumentsOpen => exact (List.append_nil _).symm
  | joint context value joint =>
      show _ ++ (_ ++ [Mark.operator joint.operator]) = _
      rw [← List.append_assoc, Context.marks_climb]
      rfl
  | groupClose context outer value inner ends =>
      have same := context.marks_collapse value
      rw [ends] at same
      simpa [Position.marks, Terminal.mark?, Context.marks] using same
  | argumentsClose context outer value inner name earlier ends
  | comma context outer value inner name earlier ends =>
      have same := context.marks_collapse value
      rw [ends] at same
      simpa [Position.marks, Terminal.mark?, Context.marks, Expression.marks, Expression.marksAll,
        Expression.marksAll_append] using same

end Position

namespace Builder

variable {precedence : Precedence} {builder fed : Builder} {marks : List Mark} {token : Token}
  {tokens : List Token}

/-- The builder waits for a value or for an argument list, or it is behind a value. The marks are
those of all that it has read. -/
inductive Stands (precedence : Precedence) (builder : Builder) : List Mark → Prop where
  | expects (context : Context) (waits : builder.Waits precedence .expectValue context) :
      Stands precedence builder context.marks
  | named (name : String) (outer : Context)
      (waits : builder.Waits precedence .expectArguments (.argument name [] outer)) :
      Stands precedence builder (Context.argument name [] outer).marks
  | behind (context : Context) (value : Expression)
      (reached : builder.Reaches precedence context value) :
      Stands precedence builder (context.marks ++ value.marks)

theorem start_stands (precedence : Precedence) : (start precedence).Stands precedence [] :=
  .expects .whole (start_waits precedence)

/-- A builder stands behind the marks of its position. -/
theorem stands_iff : builder.Stands precedence marks ↔
    ∃ position, builder.Occupies precedence position ∧ position.marks = marks := by
  constructor
  · intro stands
    cases stands with
    | expects context waits => exact ⟨.expects context, waits, rfl⟩
    | named name outer waits => exact ⟨.named name outer, waits, rfl⟩
    | behind context value reached => exact ⟨.behind context value, reached, rfl⟩
  · rintro ⟨position, occupies, rfl⟩
    cases position with
    | expects context => exact .expects context occupies
    | named name outer => exact .named name outer occupies
    | behind context value => exact .behind context value occupies

/-- Each token that is taken adds its mark at the right end. -/
theorem Stands.feed (stands : builder.Stands precedence marks)
    (success : builder.feed token = .ok fed) :
    fed.Stands precedence (marks ++ token.mark?.toList) := by
  obtain ⟨position, occupies, rfl⟩ := stands_iff.mp stands
  obtain ⟨terminal, known, next, leads, entered⟩ := occupies.feed success
  refine stands_iff.mpr ⟨next, entered, ?_⟩
  rw [leads.marks, Token.mark?, known]
  rfl

theorem Stands.feedAll (stands : builder.Stands precedence marks)
    (success : builder.feedAll tokens = .ok fed) :
    fed.Stands precedence (marks ++ tokens.filterMap Token.mark?) := by
  induction tokens generalizing builder marks with
  | nil =>
      cases success
      simpa using stands
  | cons token rest inductionHypothesis =>
      rw [Builder.feedAll] at success
      cases result : builder.feed token with
      | error error => simp [result] at success
      | ok next =>
          rw [result] at success
          have further := inductionHypothesis (stands.feed result) success
          cases left : token.mark? with
          | none => simpa [List.filterMap_cons, left] using further
          | some mark => simpa [List.filterMap_cons, left] using further

/-- A token that is refused leaves the builder as it is. -/
def feedOrKeep (builder : Builder) (token : Token) : Builder :=
  match builder.feed token with
  | .ok next => next
  | .error _ => builder

/-- The tokens are fed in order, and those that are refused are skipped. -/
def feedOn (builder : Builder) (tokens : List Token) : Builder := tokens.foldl feedOrKeep builder

/-- What each token that is taken keeps holds after all tokens. -/
theorem feedOn_keeps {kept : Builder → Prop}
    (keeps : ∀ builder token fed, kept builder → builder.feed token = .ok fed → kept fed)
    (holds : kept builder) (tokens : List Token) : kept (builder.feedOn tokens) := by
  induction tokens generalizing builder with
  | nil => exact holds
  | cons token rest inductionHypothesis =>
      apply inductionHypothesis
      rw [feedOrKeep]
      cases result : builder.feed token with
      | error error => exact holds
      | ok next => exact keeps builder token next holds result

/-- These are the tokens that are not skipped. -/
def accepted (builder : Builder) : List Token → List Token
  | [] => []
  | token :: rest =>
      match builder.feed token with
      | .ok next => token :: next.accepted rest
      | .error _ => builder.accepted rest

/-- The accepted tokens alone lead to the same builder, without a refusal. -/
theorem feedAll_accepted (builder : Builder) (tokens : List Token) :
    builder.feedAll (builder.accepted tokens) = .ok (builder.feedOn tokens) := by
  induction tokens generalizing builder with
  | nil => rfl
  | cons token rest inductionHypothesis =>
      rw [accepted, feedOn, List.foldl_cons, feedOrKeep]
      cases result : builder.feed token with
      | error error => exact inductionHypothesis builder
      | ok next =>
          show builder.feedAll (token :: next.accepted rest) = _
          rw [Builder.feedAll, result]
          exact inductionHypothesis next

/-- The marks of a builder are those of the tokens that it has taken. -/
theorem feedOn_stands (precedence : Precedence) (tokens : List Token) :
    ((start precedence).feedOn tokens).Stands precedence
      (((start precedence).accepted tokens).filterMap Token.mark?) :=
  (start_stands precedence).feedAll (feedAll_accepted (start precedence) tokens)

end Builder

end GlslFormula
