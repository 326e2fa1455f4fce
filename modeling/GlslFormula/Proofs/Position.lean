import GlslFormula.Proofs.Assembly

namespace GlslFormula

open Grammar

namespace Context

/-- A chain ends in the innermost scope. -/
theorem exists_collapse (context : Context) (value : Expression) :
    ∃ ended inner, context.collapse value = (ended, inner) ∧ ended.StartsChain ∧
      ended.scopes = context.scopes := by
  refine ⟨_, _, rfl, ?_, context.scopes_collapse value⟩
  induction context generalizing value with
  | operand operator left outer inductionHypothesis => exact inductionHypothesis _
  | _ => trivial

theorem collapse_of_whole {context : Context} (value : Expression)
    (scopes : context.scopes.map Scope.kind = []) :
    ∃ inner, context.collapse value = (.whole, inner) := by
  obtain ⟨ended, inner, ends, starts, same⟩ := context.exists_collapse value
  rw [← same] at scopes
  cases ended with
  | whole => exact ⟨inner, ends⟩
  | operand operator left outer => exact starts.elim
  | group outer | argument name earlier outer => simp [Context.scopes] at scopes

theorem collapse_of_group {context : Context} {kinds : List ScopeKind} (value : Expression)
    (scopes : context.scopes.map Scope.kind = .group :: kinds) :
    ∃ outer inner, context.collapse value = (.group outer, inner) := by
  obtain ⟨ended, inner, ends, starts, same⟩ := context.exists_collapse value
  rw [← same] at scopes
  cases ended with
  | group outer => exact ⟨outer, inner, ends⟩
  | operand operator left outer => exact starts.elim
  | whole | argument name earlier outer => simp [Context.scopes] at scopes

theorem collapse_of_call {context : Context} {kinds : List ScopeKind} (value : Expression)
    (scopes : context.scopes.map Scope.kind = .call :: kinds) :
    ∃ name earlier outer inner, context.collapse value = (.argument name earlier outer, inner) := by
  obtain ⟨ended, inner, ends, starts, same⟩ := context.exists_collapse value
  rw [← same] at scopes
  cases ended with
  | argument name earlier outer => exact ⟨name, earlier, outer, inner, ends⟩
  | operand operator left outer => exact starts.elim
  | whole | group outer => simp [Context.scopes] at scopes

end Context

/-- A value comes next, or the argument list of a call that was named, or what follows a value. -/
inductive Position where
  | expects (context : Context)
  | named (name : String) (outer : Context)
  | behind (context : Context) (value : Expression)

/-- The terminal leads from one position to the next one. A bracket or a comma ends the chain in
front of it. -/
inductive Position.Leads (precedence : Precedence) : Position → Terminal → Position → Prop where
  | number (context : Context) (text : String) :
      Leads precedence (.expects context) (.number text) (.behind context (.number text))
  | symbol (context : Context) (text : String) :
      Leads precedence (.expects context) (.symbol text) (.behind context (.symbol text))
  | groupOpen (context : Context) :
      Leads precedence (.expects context) .groupOpen (.expects (.group context))
  | name (context : Context) (text : String) :
      Leads precedence (.expects context) (.name text) (.named text context)
  | argumentsOpen (name : String) (outer : Context) :
      Leads precedence (.named name outer) .argumentsOpen (.expects (.argument name [] outer))
  | joint (context : Context) (value : Expression) (joint : Joint) :
      Leads precedence (.behind context value) (.joint joint)
        (.expects (.operand joint.operator (context.climb precedence joint.operator value).2
          (context.climb precedence joint.operator value).1))
  | groupClose (context outer : Context) (value inner : Expression)
      (ends : context.collapse value = (.group outer, inner)) :
      Leads precedence (.behind context value) .groupClose (.behind outer inner)
  | argumentsClose (context outer : Context) (value inner : Expression) (name : String)
      (earlier : List Expression)
      (ends : context.collapse value = (.argument name earlier outer, inner)) :
      Leads precedence (.behind context value) .argumentsClose
        (.behind outer (.call name (earlier ++ [inner])))
  | comma (context outer : Context) (value inner : Expression) (name : String)
      (earlier : List Expression)
      (ends : context.collapse value = (.argument name earlier outer, inner)) :
      Leads precedence (.behind context value) .comma
        (.expects (.argument name (earlier ++ [inner]) outer))

namespace Builder

variable {precedence : Precedence} {builder fed : Builder} {position : Position} {token : Token}
  {terminal : Terminal} {context : Context} {value : Expression}

/-- The builder has read what the position says. -/
def Occupies (precedence : Precedence) (builder : Builder) : Position → Prop
  | .expects context => builder.Waits precedence .expectValue context
  | .named name outer => builder.Waits precedence .expectArguments (.argument name [] outer)
  | .behind context value => builder.Reaches precedence context value

/-- The terminal leads from the position to one that the builder occupies. -/
def Enters (precedence : Precedence) (builder : Builder) (position : Position)
    (terminal : Terminal) : Prop :=
  ∃ next, position.Leads precedence terminal next ∧ builder.Occupies precedence next

/-- A token that is taken has a terminal that the control takes. -/
theorem terminal_of_feed (success : builder.feed token = .ok fed) :
    ∃ terminal, token.lexeme.terminal? = some terminal ∧
      builder.control.step terminal = some fed.control := by
  have same := builder.feed_control token
  rw [success] at same
  exact Option.bind_eq_some_iff.mp same.symm

/-- A token has one result, so what is known of some result holds of this one. -/
theorem of_feed {property : Builder → Prop} (success : builder.feed token = .ok fed)
    (known : ∃ other, builder.feed token = .ok other ∧ property other) : property fed := by
  obtain ⟨other, again, holds⟩ := known
  rwa [Except.ok.inj (success.symm.trans again)]

/-- A builder that waits for a value takes the first token of one. -/
theorem Waits.enters (waits : builder.Waits precedence .expectValue context)
    (success : builder.feed token = .ok fed) (known : token.lexeme.terminal? = some terminal)
    (step : builder.control.step terminal = some fed.control) :
    fed.Enters precedence (.expects context) terminal := by
  simp only [control, waits.phased] at step
  cases terminal with
  | number text => exact ⟨_, .number context text, of_feed success (waits.number known)⟩
  | symbol text => exact ⟨_, .symbol context text, of_feed success (waits.symbol known)⟩
  | groupOpen => exact ⟨_, .groupOpen context, of_feed success (waits.groupOpen known)⟩
  | name text => exact ⟨_, .name context text, of_feed success (waits.name known)⟩
  | _ => simp [Control.step] at step

/-- Behind a function name only the start of its list is taken. -/
theorem Waits.enters_list {name : String} {outer : Context}
    (waits : builder.Waits precedence .expectArguments (.argument name [] outer))
    (success : builder.feed token = .ok fed) (known : token.lexeme.terminal? = some terminal)
    (step : builder.control.step terminal = some fed.control) :
    fed.Enters precedence (.named name outer) terminal := by
  simp only [control, waits.phased] at step
  cases terminal with
  | argumentsOpen =>
      exact ⟨_, .argumentsOpen name outer, of_feed success (waits.argumentsOpen known)⟩
  | _ => simp [Control.step] at step

/-- Behind a value an operator, a comma or a closing bracket is taken. -/
theorem Reaches.enters (reached : builder.Reaches precedence context value)
    (success : builder.feed token = .ok fed) (known : token.lexeme.terminal? = some terminal)
    (step : builder.control.step terminal = some fed.control) :
    fed.Enters precedence (.behind context value) terminal := by
  rw [control, reached.phased, reached.nested] at step
  cases terminal with
  | joint joint => exact ⟨_, .joint context value joint, of_feed success (reached.joint known)⟩
  | groupClose =>
      rcases scopes : context.scopes.map Scope.kind with _ | ⟨_ | _, kinds⟩ <;>
        simp [scopes, Control.step] at step
      obtain ⟨outer, inner, ends⟩ := Context.collapse_of_group value scopes
      exact ⟨_, .groupClose context outer value inner ends,
        of_feed success (reached.groupClose ends known)⟩
  | argumentsClose =>
      rcases scopes : context.scopes.map Scope.kind with _ | ⟨_ | _, kinds⟩ <;>
        simp [scopes, Control.step] at step
      obtain ⟨name, earlier, outer, inner, ends⟩ := Context.collapse_of_call value scopes
      exact ⟨_, .argumentsClose context outer value inner name earlier ends,
        of_feed success (reached.argumentsClose ends known)⟩
  | comma =>
      rcases scopes : context.scopes.map Scope.kind with _ | ⟨_ | _, kinds⟩ <;>
        simp [scopes, Control.step] at step
      obtain ⟨name, earlier, outer, inner, ends⟩ := Context.collapse_of_call value scopes
      exact ⟨_, .comma context outer value inner name earlier ends,
        of_feed success (reached.comma ends known)⟩
  | _ => simp [Control.step] at step

/-- Each token that is taken leads to the next position. -/
theorem Occupies.feed (occupies : builder.Occupies precedence position)
    (success : builder.feed token = .ok fed) :
    ∃ terminal, token.lexeme.terminal? = some terminal ∧
      fed.Enters precedence position terminal := by
  obtain ⟨terminal, known, step⟩ := terminal_of_feed success
  refine ⟨terminal, known, ?_⟩
  cases position with
  | expects context => exact Waits.enters occupies success known step
  | named name outer => exact Waits.enters_list occupies success known step
  | behind context value => exact Reaches.enters occupies success known step

end Builder

end GlslFormula
