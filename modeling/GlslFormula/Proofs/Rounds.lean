import Mathlib
import GlslFormula.Worklist

namespace GlslFormula.Worklist

variable {State Item Failure : Type} {visit : State → Item → Except Failure (State × List Item)}

/-- The pending items end with this result after this many rounds. -/
inductive Runs (visit : State → Item → Except Failure (State × List Item)) :
    List Item → State → Nat → Except Failure State → Prop where
  | done (state : State) : Runs visit [] state 0 (.ok state)
  | round (item : Item) (rest followers : List Item) (state next : State) (rounds : Nat)
      (result : Except Failure State) (visited : visit state item = .ok (next, followers))
      (remaining : Runs visit (followers ++ rest) next rounds result) :
      Runs visit (item :: rest) state (rounds + 1) result
  | fail (item : Item) (rest : List Item) (state : State) (failure : Failure)
      (visited : visit state item = .error failure) :
      Runs visit (item :: rest) state 1 (.error failure)

/-- Enough fuel gives the result of a run. -/
theorem Runs.fold_eq {pending : List Item} {state : State} {rounds fuel : Nat}
    {result : Except Failure State} (runs : Runs visit pending state rounds result)
    (enough : rounds ≤ fuel) : fold visit fuel pending state = result := by
  induction runs generalizing fuel with
  | done state => exact fold_nil visit fuel state
  | round item rest followers state next rounds result visited remaining inductionHypothesis =>
      obtain ⟨fuel, rfl⟩ := Nat.exists_eq_add_of_le' enough
      rw [← Nat.add_assoc, fold, visited]
      exact inductionHypothesis (Nat.le_add_left rounds fuel)
  | fail item rest state failure visited =>
      obtain ⟨fuel, rfl⟩ := Nat.exists_eq_add_of_le' enough
      rw [fold, visited]

/-- One run goes on behind another. -/
theorem Runs.append {first second : List Item} {state middle : State} {rounds more : Nat}
    {result : Except Failure State} (before : Runs visit first state rounds (.ok middle))
    (after : Runs visit second middle more result) :
    Runs visit (first ++ second) state (rounds + more) result := by
  generalize ended : (Except.ok middle : Except Failure State) = outcome at before
  induction before with
  | done state =>
      obtain rfl : middle = state := Except.ok.inj ended
      rw [List.nil_append, Nat.zero_add]
      exact after
  | round item rest followers state next rounds outcome visited remaining inductionHypothesis =>
      rw [Nat.add_right_comm]
      refine .round item (rest ++ second) followers state next (rounds + more) result visited ?_
      rw [← List.append_assoc]
      exact inductionHypothesis ended
  | fail item rest state failure visited => simp at ended

/-- A failure does not depend on what stands behind it. -/
theorem Runs.append_fail {first : List Item} {state : State} {rounds : Nat} {failure : Failure}
    (before : Runs visit first state rounds (.error failure)) (second : List Item) :
    Runs visit (first ++ second) state rounds (.error failure) := by
  generalize ended : (Except.error failure : Except Failure State) = outcome at before
  induction before with
  | done state => simp at ended
  | round item rest followers state next rounds outcome visited remaining inductionHypothesis =>
      refine .round item (rest ++ second) followers state next rounds outcome visited ?_
      rw [← List.append_assoc]
      exact inductionHypothesis ended
  | fail item rest state failure visited => exact .fail item (rest ++ second) state failure visited

end GlslFormula.Worklist
