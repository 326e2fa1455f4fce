import GlslFormula.Proofs.Expression
import GlslFormula.Proofs.Rounds
import GlslFormula.Shader.Generate

namespace GlslFormula

open Shader

/-- An operation is known and has as many operands as its target. The operands come next. -/
def Shader.apply (name : String) (count : Nat) (arguments : Except GenerateError String) :
    Except GenerateError String :=
  match operation? name with
  | none => .error (.unknownOperation name)
  | some target =>
      if count = target.arity then arguments.map fun text => target.name ++ "(" ++ text ++ ")"
      else .error (.arityMismatch name target.arity count)

/-- Two texts are written one after the other. -/
def Shader.join (first second : Except GenerateError String) : Except GenerateError String :=
  first.bind fun left => second.map fun right => left ++ ", " ++ right

namespace Expression

mutual

/-- A node's own check comes before those of its operands. -/
def write : Expression → Except GenerateError String
  | .number text => .ok text
  | .symbol text =>
      match symbol? text with
      | some constant => .ok constant
      | none => .error (.unknownSymbol text)
  | .operator sign left right => apply sign.symbol 2 (join left.write right.write)
  | .call name arguments => apply name arguments.length (writeAll arguments)

def writeAll : List Expression → Except GenerateError String
  | [] => .ok ""
  | [expression] => expression.write
  | expression :: next :: rest => join expression.write (writeAll (next :: rest))

end

end Expression

theorem Tree.ShowsAll.length_eq {tree : Tree} {ids : List NodeId} {expressions : List Expression}
    (shown : tree.ShowsAll ids expressions) : ids.length = expressions.length := by
  induction ids generalizing expressions with
  | nil =>
      cases expressions with
      | nil => rfl
      | cons expression rest => exact shown.elim
  | cons id ids inductionHypothesis =>
      cases expressions with
      | nil => exact shown.elim
      | cons expression rest => rw [List.length_cons, List.length_cons, inductionHypothesis shown.2]

namespace Shader

open Worklist

variable {tree : Tree}

/-- The items are written behind the text so far, within a number of rounds. -/
def Writes (tree : Tree) (items : List Item) (result : Except GenerateError String)
    (bound : Nat) : Prop :=
  ∀ written : String, ∃ rounds ≤ bound,
    Runs (visit tree) items written rounds (result.map fun text => written ++ text)

theorem Writes.mono {items : List Item} {result : Except GenerateError String}
    {bound larger : Nat} (writes : Writes tree items result bound) (le : bound ≤ larger) :
    Writes tree items result larger := by
  intro written
  obtain ⟨rounds, few, runs⟩ := writes written
  exact ⟨rounds, Nat.le_trans few le, runs⟩

theorem writes_separator : Writes tree [Item.separator] (.ok ", ") 1 := by
  intro written
  exact ⟨1, Nat.le_refl 1, .round Item.separator [] [] written _ 0 _ rfl (.done _)⟩

theorem writes_close : Writes tree [Item.close] (.ok ")") 1 := by
  intro written
  exact ⟨1, Nat.le_refl 1, .round Item.close [] [] written _ 0 _ rfl (.done _)⟩

/-- Two groups of items are written one after the other. -/
theorem Writes.append {first second : List Item} {before after : Except GenerateError String}
    {few more : Nat} (writesFirst : Writes tree first before few)
    (writesSecond : Writes tree second after more) :
    Writes tree (first ++ second)
      (before.bind fun left => after.map fun right => left ++ right) (few + more) := by
  intro written
  obtain ⟨rounds, bound, runs⟩ := writesFirst written
  cases before with
  | error error =>
      exact ⟨rounds, Nat.le_trans bound (Nat.le_add_right few more), runs.append_fail second⟩
  | ok left =>
      obtain ⟨others, otherBound, otherRuns⟩ := writesSecond (written ++ left)
      refine ⟨rounds + others, Nat.add_le_add bound otherBound, ?_⟩
      have whole := runs.append otherRuns
      cases after with
      | error error => exact whole
      | ok right =>
          rw [Except.map, String.append_assoc] at whole
          exact whole

/-- A comma stands between two groups of items. -/
theorem Writes.join {first second : List Item} {before after : Except GenerateError String}
    {few more : Nat} (writesFirst : Writes tree first before few)
    (writesSecond : Writes tree second after more) :
    Writes tree (first ++ Item.separator :: second) (Shader.join before after)
      (few + (1 + more)) := by
  have written := writesFirst.append (writes_separator.append writesSecond)
  cases before <;> cases after <;>
    simpa [Shader.join, Except.bind, Except.map, String.append_assoc] using written

/-- An operation is written with its operands inside brackets. -/
theorem writes_operation {id : NodeId} {name : String} {children : List NodeId}
    {arguments : Except GenerateError String} {bound : Nat}
    (labels : tree.Labels id .operation name children)
    (inside : Writes tree (argumentItems children) arguments bound) :
    Writes tree [.node id] (apply name children.length arguments) (bound + 2) := by
  obtain ⟨node, found, kind, rfl, rfl⟩ := labels
  intro written
  cases known : operation? node.text with
  | none =>
      refine ⟨1, by omega, ?_⟩
      have failed : visit tree written (.node id) = .error (.unknownOperation node.text) := by
        simp [visit, found, visitNode, kind, known]
      simpa [apply, known, Except.map] using Runs.fail _ [] written _ failed
  | some target =>
      by_cases same : node.children.length = target.arity
      · have visited : visit tree written (.node id) =
            .ok (written ++ target.name ++ "(", argumentItems node.children ++ [.close]) := by
          simp [visit, found, visitNode, kind, known, same]
        obtain ⟨rounds, few, runs⟩ :=
          (inside.append writes_close) (written ++ target.name ++ "(")
        refine ⟨rounds + 1, by omega, ?_⟩
        have whole := Runs.round _ [] _ written _ rounds _ visited (by simpa using runs)
        cases arguments <;>
          simpa [apply, known, same, Except.bind, Except.map, String.append_assoc] using whole
      · refine ⟨1, by omega, ?_⟩
        have failed : visit tree written (.node id) =
            .error (.arityMismatch node.text target.arity node.children.length) := by
          simp [visit, found, visitNode, kind, known, same]
        simpa [apply, known, same, Except.map] using Runs.fail _ [] written _ failed

mutual

/-- The part of a tree that shows an expression is written like the expression. -/
theorem writes_of_shows {id : NodeId} {expression : Expression}
    (shown : tree.Shows id expression) :
    Writes tree [Item.node id] expression.write (3 * expression.size - 1) := by
  cases expression with
  | number text =>
      obtain ⟨node, found, kind, rfl, -⟩ := shown
      intro written
      refine ⟨1, by simp [Expression.size], .round _ [] [] written _ 0 _ ?_ (.done _)⟩
      simp [visit, found, visitNode, kind]
  | symbol text =>
      obtain ⟨node, found, kind, rfl, -⟩ := shown
      intro written
      refine ⟨1, by simp [Expression.size], ?_⟩
      cases known : symbol? node.text with
      | none =>
          have failed : visit tree written (.node id) = .error (.unknownSymbol node.text) := by
            simp [visit, found, visitNode, kind, known]
          simpa [Expression.write, known, Except.map] using Runs.fail _ [] written _ failed
      | some constant =>
          have visited : visit tree written (.node id) = .ok (written ++ constant, []) := by
            simp [visit, found, visitNode, kind, known]
          simpa [Expression.write, known, Except.map] using
            Runs.round _ [] [] written _ 0 _ visited (.done _)
  | operator sign left right =>
      obtain ⟨first, second, labels, showsLeft, showsRight⟩ := shown
      have inside := (writes_of_shows showsLeft).join (writes_of_shows showsRight)
      have written := writes_operation labels inside
      have someLeft := left.size_pos
      have someRight := right.size_pos
      exact written.mono (by simp only [Expression.size]; omega)
  | call name arguments =>
      obtain ⟨children, labels, showsAll⟩ := shown
      have length : children.length = arguments.length := showsAll.length_eq
      have written := writes_operation labels (writes_of_showsAll showsAll)
      rw [length] at written
      exact written.mono (by simp only [Expression.size]; omega)

theorem writes_of_showsAll {ids : List NodeId} {expressions : List Expression}
    (shown : tree.ShowsAll ids expressions) :
    Writes tree (argumentItems ids) (Expression.writeAll expressions)
      (3 * Expression.sizeAll expressions) := by
  match ids, expressions, shown with
  | [], [], _ =>
      intro written
      refine ⟨0, Nat.zero_le _, ?_⟩
      simpa [Expression.writeAll, Except.map, argumentItems] using Runs.done written
  | [id], [expression], ⟨first, _⟩ =>
      have written := writes_of_shows first
      exact written.mono (by simp only [Expression.sizeAll]; omega)
  | id :: next :: ids, expression :: other :: rest, ⟨first, others⟩ =>
      have written := (writes_of_shows first).join (writes_of_showsAll others)
      have some := expression.size_pos
      exact written.mono (by simp only [Expression.sizeAll]; omega)

end

/-- The generator writes the expression that the tree shows. -/
theorem generate_eq_write {top : NodeId} {expression : Expression}
    (atRoot : tree.Labels Tree.root .root "" [top]) (shown : tree.Shows top expression)
    (large : expression.size ≤ tree.size) : generate tree = expression.write := by
  obtain ⟨node, found, -, -, children⟩ := atRoot
  have only : tree.children Tree.root = [top] := by
    rw [Tree.children, found]
    exact children
  obtain ⟨rounds, few, runs⟩ := writes_of_shows shown ""
  have enough : rounds ≤ 3 * tree.size := by omega
  rw [generate, only]
  refine (runs.fold_eq enough).trans ?_
  cases expression.write with
  | error error => rfl
  | ok text => rw [Except.map, String.empty_append]

end Shader

end GlslFormula
