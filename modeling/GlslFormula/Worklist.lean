namespace GlslFormula.Worklist

/-- A round takes the first item, updates the state and puts the follow-up items in front. The
walk ends when nothing is pending, or after `fuel` rounds. -/
def fold {State Item Failure : Type} (visit : State → Item → Except Failure (State × List Item)) :
    (fuel : Nat) → (pending : List Item) → State → Except Failure State
  | _, [], state => .ok state
  | 0, _ :: _, state => .ok state
  | fuel + 1, item :: rest, state =>
      match visit state item with
      | .ok (next, followers) => fold visit fuel (followers ++ rest) next
      | .error failure => .error failure

@[simp] theorem fold_nil {State Item Failure : Type}
    (visit : State → Item → Except Failure (State × List Item)) (fuel : Nat) (state : State) :
    fold visit fuel [] state = .ok state := by
  cases fuel <;> rfl

/-- The same walk when no round fails. -/
def foldTotal {State Item : Type} (visit : State → Item → State × List Item) :
    (fuel : Nat) → (pending : List Item) → State → State
  | _, [], state => state
  | 0, _ :: _, state => state
  | fuel + 1, item :: rest, state =>
      foldTotal visit fuel ((visit state item).2 ++ rest) (visit state item).1

theorem fold_ok {State Item Failure : Type} (visit : State → Item → State × List Item)
    (fuel : Nat) (pending : List Item) (state : State) :
    fold (fun state item => (.ok (visit state item) : Except Failure _)) fuel pending state =
      .ok (foldTotal visit fuel pending state) := by
  induction fuel generalizing pending state with
  | zero => cases pending <;> rfl
  | succ fuel inductionHypothesis =>
      cases pending with
      | nil => rfl
      | cons item rest => exact inductionHypothesis _ _

end GlslFormula.Worklist
