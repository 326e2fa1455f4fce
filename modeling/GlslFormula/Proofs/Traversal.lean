import GlslFormula.Proofs.Origin
import GlslFormula.Proofs.Progress

namespace GlslFormula

open Grammar

section Numbering

variable {Label : Type} {property : NodeId → Label → Prop} {start : NodeId} {labels : List Label}

/-- Each label has a property together with the number at its place. -/
def Numbered (property : NodeId → Label → Prop) : (start : NodeId) → List Label → Prop
  | _, [] => True
  | start, label :: rest => property start label ∧ Numbered property (start + 1) rest

theorem numbered_append (first second : List Label) :
    Numbered property start (first ++ second) ↔
      Numbered property start first ∧ Numbered property (start + first.length) second := by
  induction first generalizing start with
  | nil => simp [Numbered]
  | cons label rest inductionHypothesis =>
      rw [List.cons_append, Numbered, Numbered, inductionHypothesis, List.length_cons, and_assoc,
        Nat.add_right_comm start, Nat.add_assoc]

theorem numbered_iff :
    Numbered property start labels ↔
      ∀ index label, labels[index]? = some label → property (start + index) label := by
  induction labels generalizing start with
  | nil => simp [Numbered]
  | cons first rest inductionHypothesis =>
      rw [Numbered, inductionHypothesis]
      constructor
      · rintro ⟨here, later⟩ index label found
        cases index with
        | zero =>
            obtain rfl := Option.some.inj found
            exact here
        | succ index =>
            have there := later index label found
            rwa [Nat.add_assoc, Nat.add_comm 1 index] at there
      · intro each
        refine ⟨each 0 first rfl, ?_⟩
        intro index label found
        rw [Nat.add_assoc, Nat.add_comm 1 index]
        exact each (index + 1) label found

end Numbering

open Mark

namespace Tree

/-- A traversal of nodes with all that is below them. A node that was created for a function name
comes before its children, one for an operator comes behind its first child, and a value comes
alone. -/
inductive Visits (tree : Tree) (created : NodeId → Token → Prop) :
    (ids visited : List NodeId) → Prop where
  | done : Visits tree created [] []
  | value {id : NodeId} {token : Token} {others rest : List NodeId} (made : created id token)
      (kind : token.kind = .number ∨ token.kind = .symbol)
      (after : Visits tree created others rest) :
      Visits tree created (id :: others) (id :: rest)
  | call {id : NodeId} {token : Token} {others below rest : List NodeId} (made : created id token)
      (kind : token.kind = .functionName) (inside : Visits tree created (tree.children id) below)
      (after : Visits tree created others rest) :
      Visits tree created (id :: others) (id :: below ++ rest)
  | operator {id first : NodeId} {token : Token} {second others left right rest : List NodeId}
      (made : created id token) (kind : token.kind = .operator ∨ token.kind = .implicitMultiply)
      (children : tree.children id = first :: second)
      (before : Visits tree created [first] left) (behind : Visits tree created second right)
      (after : Visits tree created others rest) :
      Visits tree created (id :: others) (left ++ id :: right ++ rest)

variable {precedence : Precedence} {tree : Tree} {created : NodeId → Token → Prop}

theorem Visits.append {ids others first second : List NodeId}
    (visits : tree.Visits created ids first) (after : tree.Visits created others second) :
    tree.Visits created (ids ++ others) (first ++ second) := by
  induction visits with
  | done => exact after
  | value made kind _ inductionHypothesis => exact .value made kind inductionHypothesis
  | call made kind inside _ _ inductionHypothesis =>
      rw [List.append_assoc]
      exact .call made kind inside inductionHypothesis
  | operator made kind children before behind _ _ _ inductionHypothesis =>
      rw [List.append_assoc]
      exact .operator made kind children before behind inductionHypothesis

theorem children_of_get? {id : NodeId} {node : Node} (found : tree.get? id = some node) :
    tree.children id = node.children := by
  rw [children, found]

end Tree

/-- These kinds of tokens leave the mark. -/
def Mark.MadeBy : Mark → TokenKind → Prop
  | .number _, kind => kind = .number
  | .symbol _, kind => kind = .symbol
  | .operator _, kind => kind = .operator ∨ kind = .implicitMultiply
  | .call _, kind => kind = .functionName

theorem Token.madeBy_of_mark {token : Token} {mark : Mark} (left : token.mark? = some mark) :
    mark.MadeBy token.kind := by
  obtain ⟨terminal, known, same⟩ := Option.bind_eq_some_iff.mp left
  rw [kind_eq known]
  cases terminal with
  | joint between =>
      cases same
      cases between
      · exact .inl rfl
      · exact .inr rfl
  | number text | symbol text | name text =>
      cases same
      rfl
  | _ => cases same

/-- The node was created for a token with this mark. -/
def Mark.Leaves (created : NodeId → Token → Prop) (id : NodeId) (mark : Mark) : Prop :=
  ∃ token, created id token ∧ token.mark? = some mark

namespace Tree

variable {precedence : Precedence} {tree : Tree} {created : NodeId → Token → Prop}

mutual

/-- The nodes of a held expression are visited in the order of their numbers. -/
theorem Holds.visits {parent start : NodeId} {expression : Expression}
    (held : tree.Holds precedence parent start expression)
    (made : Numbered (Leaves created) start expression.marks) :
    tree.Visits created [expression.top start] (List.range' start expression.size) := by
  cases expression with
  | number text =>
      obtain ⟨token, maker, left⟩ := made.1
      exact .value maker (.inl (Token.madeBy_of_mark left)) .done
  | symbol text =>
      obtain ⟨token, maker, left⟩ := made.1
      exact .value maker (.inr (Token.madeBy_of_mark left)) .done
  | operator operator left right =>
      obtain ⟨node, first, second⟩ := held
      rw [Expression.marks, numbered_append, left.length_marks] at made
      obtain ⟨before, ⟨token, maker, sign⟩, behind⟩ := made
      have visits := Visits.operator maker (Token.madeBy_of_mark sign) (children_of_get? node)
        (first.visits before) (second.visits behind) .done
      have range : List.range' start left.size ++
          (start + left.size) :: List.range' (start + left.size + 1) right.size ++ [] =
            List.range' start (left.size + 1 + right.size) := by
        rw [List.append_nil, ← List.range'_succ, List.range'_append_1, Nat.add_assoc,
          Nat.add_comm 1]
      rwa [range] at visits
  | call name arguments =>
      obtain ⟨node, inside⟩ := held
      obtain ⟨⟨token, maker, named⟩, others⟩ := made
      have below := inside.visits others
      have visits := Visits.call maker (Token.madeBy_of_mark named)
        (by rwa [children_of_get? node]) .done
      rwa [List.append_nil, ← List.range'_succ, Nat.add_comm] at visits

theorem HoldsAll.visits {parent start : NodeId} {expressions : List Expression}
    (held : tree.HoldsAll precedence parent start expressions)
    (made : Numbered (Leaves created) start (Expression.marksAll expressions)) :
    tree.Visits created (Expression.tops start expressions)
      (List.range' start (Expression.sizeAll expressions)) := by
  cases expressions with
  | nil => exact .done
  | cons expression rest =>
      obtain ⟨first, others⟩ := held
      rw [Expression.marksAll, numbered_append, expression.length_marks] at made
      have visits := (first.visits made.1).append (others.visits made.2)
      rwa [List.range'_append_1] at visits

end

/-- The nodes around a hole are visited before those inside it. -/
theorem Surrounds.visits {context : Context} {hole : List NodeId} {count : Nat}
    (around : tree.Surrounds precedence context hole)
    (made : Numbered (Leaves created) 1 context.marks)
    (inside : tree.Visits created hole (List.range' context.next count)) :
    tree.Visits created (tree.children root) (List.range' 1 (context.marks.length + count)) := by
  induction context generalizing hole count with
  | whole =>
      rw [children_of_get? around, Context.marks, List.length_nil, Nat.zero_add]
      exact inside
  | operand operator left outer inductionHypothesis =>
      obtain ⟨node, first, outside⟩ := around
      rw [Context.marks, numbered_append, numbered_append, ← outer.next_eq, left.length_marks]
        at made
      obtain ⟨early, before, ⟨token, maker, sign⟩, -⟩ := made
      have visits := Visits.operator maker (Token.madeBy_of_mark sign) (children_of_get? node)
        (first.visits before) inside .done
      have range : List.range' outer.next left.size ++ (outer.next + left.size) ::
          List.range' (Context.operand operator left outer).next count ++ [] =
            List.range' outer.next (left.size + (1 + count)) := by
        rw [List.append_nil, Context.next, ← List.range'_succ, List.range'_append_1,
          Nat.add_comm 1]
      rw [range] at visits
      have whole := inductionHypothesis outside early visits
      simpa [Context.marks, Nat.add_assoc] using whole
  | group outer inductionHypothesis => exact inductionHypothesis around made inside
  | argument name earlier outer inductionHypothesis =>
      obtain ⟨node, before, outside⟩ := around
      rw [Context.marks, numbered_append, ← outer.next_eq] at made
      obtain ⟨early, ⟨token, maker, named⟩, others⟩ := made
      have below := (before.visits others).append inside
      rw [Context.next, List.range'_append_1] at below
      have visits := Visits.call maker (Token.madeBy_of_mark named)
        (by rwa [children_of_get? node]) .done
      rw [List.append_nil, ← List.range'_succ] at visits
      have whole := inductionHypothesis outside early visits
      simpa [Context.marks, Nat.add_assoc, Nat.add_comm 1] using whole

/-- A node with the kind and the text of the mark. An operator has two children, unless it is the
one that waits for its right operand. -/
def Bears (tree : Tree) (waiting : Option NodeId) (id : NodeId) (mark : Mark) : Prop :=
  ∃ node, tree.get? id = some node ∧ node.kind = mark.kind ∧ node.text = mark.text ∧
    ∀ sign, mark = .operator sign →
      node.children.length = 2 ∨ waiting = some id ∧ node.children.length = 1

variable {waiting : Option NodeId}

mutual

theorem Holds.bears {parent start : NodeId} {expression : Expression}
    (held : tree.Holds precedence parent start expression) :
    Numbered (tree.Bears waiting) start expression.marks := by
  cases expression with
  | number text => exact ⟨⟨_, held, rfl, rfl, by simp⟩, trivial⟩
  | symbol text => exact ⟨⟨_, held, rfl, rfl, by simp⟩, trivial⟩
  | operator operator left right =>
      obtain ⟨node, first, second⟩ := held
      rw [Expression.marks, numbered_append, left.length_marks]
      exact ⟨first.bears, ⟨_, node, rfl, rfl, fun _ _ => .inl rfl⟩, second.bears⟩
  | call name arguments =>
      obtain ⟨node, inside⟩ := held
      exact ⟨⟨_, node, rfl, rfl, by simp⟩, inside.bears⟩

theorem HoldsAll.bears {parent start : NodeId} {expressions : List Expression}
    (held : tree.HoldsAll precedence parent start expressions) :
    Numbered (tree.Bears waiting) start (Expression.marksAll expressions) := by
  cases expressions with
  | nil => trivial
  | cons expression rest =>
      rw [Expression.marksAll, numbered_append, expression.length_marks]
      exact ⟨held.1.bears, held.2.bears⟩

end

end Tree

/-- The operator that has no right operand yet. -/
def Context.waiting : Context → Option NodeId
  | .whole => none
  | .operand _ left outer => some (outer.next + left.size)
  | .group outer => outer.waiting
  | .argument _ _ _ => none

theorem Context.node_of_waiting {context : Context} {id : NodeId}
    (pending : context.waiting = some id) : context.node = id := by
  induction context with
  | whole => cases pending
  | operand operator left outer _ => exact Option.some.inj pending
  | group outer inductionHypothesis => exact inductionHypothesis pending
  | argument name earlier outer _ => cases pending

namespace Tree

variable {precedence : Precedence} {tree : Tree} {waiting : Option NodeId}

/-- Only the operator in front of an empty hole lacks a child. -/
theorem Surrounds.bears {context : Context} {hole : List NodeId}
    (around : tree.Surrounds precedence context hole) (single : hole.length ≤ 1)
    (pending : hole = [] → context.waiting = waiting) :
    Numbered (tree.Bears waiting) 1 context.marks := by
  induction context generalizing hole with
  | whole => trivial
  | operand operator left outer inductionHypothesis =>
      obtain ⟨node, first, outside⟩ := around
      rw [Context.marks, numbered_append, numbered_append, ← outer.next_eq, left.length_marks]
      refine ⟨inductionHypothesis outside (Nat.le_refl 1) (by simp), first.bears, ?_, trivial⟩
      refine ⟨_, node, rfl, rfl, ?_⟩
      intro _ _
      cases hole with
      | nil => exact .inr ⟨(pending rfl).symm, rfl⟩
      | cons top rest =>
          have empty : rest = [] := by simpa using single
          rw [empty]
          exact .inl rfl
  | group outer inductionHypothesis => exact inductionHypothesis around single pending
  | argument name earlier outer inductionHypothesis =>
      obtain ⟨node, before, outside⟩ := around
      rw [Context.marks, numbered_append, ← outer.next_eq]
      refine ⟨inductionHypothesis outside (Nat.le_refl 1) (by simp), ?_, before.bears⟩
      exact ⟨_, node, rfl, rfl, by simp⟩

end Tree

namespace Builder

variable {precedence : Precedence} {builder : Builder} {marks : List Mark}
  {created : NodeId → Token → Prop}

/-- A builder has visited its nodes in order at each point of a formula. -/
theorem Stands.visits (stands : builder.Stands precedence marks)
    (made : Numbered (Leaves created) 1 marks) :
    builder.tree.Visits created (builder.tree.children Tree.root)
      (List.range' 1 marks.length) := by
  cases stands with
  | expects context waits =>
      have nothing : builder.tree.Visits created [] (List.range' context.next 0) := .done
      exact waits.built.around.visits made nothing
  | named name outer waits =>
      have nothing : builder.tree.Visits created []
          (List.range' (Context.argument name [] outer).next 0) := .done
      exact waits.built.around.visits made nothing
  | behind context value reached =>
      rw [numbered_append, ← context.next_eq] at made
      rw [List.length_append, value.length_marks]
      exact reached.built.around.visits made.1 (reached.built.inside.visits made.2)

/-- A builder lacks at most the right operand of the operator at its cursor. -/
theorem Stands.bears (stands : builder.Stands precedence marks) :
    ∃ waiting, Numbered (builder.tree.Bears waiting) 1 marks ∧
      ∀ id, waiting = some id → builder.cursor = id ∧ builder.phase = .expectValue := by
  cases stands with
  | expects context waits =>
      refine ⟨context.waiting, waits.built.around.bears (Nat.zero_le 1) fun _ => rfl, ?_⟩
      intro id pending
      exact ⟨waits.placed.trans (Context.node_of_waiting pending), waits.phased⟩
  | named name outer waits =>
      exact ⟨none, waits.built.around.bears (Nat.zero_le 1) fun _ => rfl, by simp⟩
  | behind context value reached =>
      refine ⟨none, ?_, by simp⟩
      rw [numbered_append, ← context.next_eq]
      exact ⟨reached.built.around.bears (Nat.le_refl 1) (by simp), reached.built.inside.bears⟩

/-- The node was created for a token, which is accepted and has the tokens `behind` after it. -/
def CreatedFor (precedence : Precedence) (tokens : List Token) (id : NodeId) (token : Token)
    (behind : List Token) : Prop :=
  ∃ before, (start precedence).accepted tokens = before ++ token :: behind ∧
    Makes precedence before id ∧ token.kind.makesNode = true

/-- These are the accepted tokens that nodes were created for. -/
def makers (precedence : Precedence) (tokens : List Token) : List Token :=
  ((start precedence).accepted tokens).filter fun token => token.kind.makesNode

end Builder

namespace Token

/-- Each token that a list keeps stands behind as many kept ones as its place says. -/
theorem filter_getElem?_iff {keep : Token → Bool} {tokens : List Token} {index : Nat}
    {token : Token} :
    (tokens.filter keep)[index]? = some token ↔
      ∃ before behind, tokens = before ++ token :: behind ∧ before.countP keep = index ∧
        keep token = true := by
  constructor
  · intro found
    induction tokens generalizing index with
    | nil => simp at found
    | cons first rest inductionHypothesis =>
        by_cases kept : keep first = true
        · rw [List.filter_cons_of_pos kept] at found
          cases index with
          | zero =>
              obtain rfl := Option.some.inj found
              exact ⟨[], rest, rfl, rfl, kept⟩
          | succ index =>
              obtain ⟨before, behind, rfl, count, last⟩ := inductionHypothesis found
              refine ⟨first :: before, behind, rfl, ?_, last⟩
              rw [List.countP_cons_of_pos kept, count]
        · rw [List.filter_cons_of_neg kept] at found
          obtain ⟨before, behind, rfl, count, last⟩ := inductionHypothesis found
          refine ⟨first :: before, behind, rfl, ?_, last⟩
          rw [List.countP_cons_of_neg kept, count]
  · rintro ⟨before, behind, rfl, rfl, kept⟩
    rw [List.filter_append, List.filter_cons_of_pos kept, List.countP_eq_length_filter,
      List.getElem?_append_right (Nat.le_refl _), Nat.sub_self]
    rfl

/-- A node has the kind of its token. -/
def nodeKind (token : Token) : NodeKind :=
  match token.kind with
  | .number => .number
  | .symbol => .symbol
  | _ => .operation

/-- A node has the text of its token, and an implicit multiplication is written as `*`. -/
def nodeText (token : Token) : String :=
  if token.kind = .implicitMultiply then "*" else token.text

theorem label_of_mark {token : Token} {mark : Mark} (left : token.mark? = some mark) :
    mark.kind = token.nodeKind ∧ mark.text = token.nodeText := by
  obtain ⟨kind, text, span⟩ := token
  cases kind with
  | operator =>
      obtain ⟨terminal, known, same⟩ := Option.bind_eq_some_iff.mp left
      obtain ⟨operator, found, rfl⟩ := Option.map_eq_some_iff.mp known
      cases same
      exact ⟨rfl, (Operator.ofSymbol?_eq_some_iff.mp found).symm⟩
  | number | symbol | implicitMultiply | functionName =>
      cases left
      exact ⟨rfl, rfl⟩
  | _ => cases left

theorem isSome_mark? {token : Token} {terminal : Terminal}
    (known : token.lexeme.terminal? = some terminal) :
    token.mark?.isSome = token.kind.makesNode := by
  rw [makesNode_eq known, mark?, known]
  cases terminal <;> rfl

end Token

namespace Builder

variable {precedence : Precedence} {tokens behind : List Token} {token : Token} {id : NodeId}

/-- A node has the number of tokens that made nodes before its own token. -/
theorem createdFor_iff :
    CreatedFor precedence tokens id token behind ↔
      ∃ before, (start precedence).accepted tokens = before ++ token :: behind ∧
        id = Token.nextNode before ∧ token.kind.makesNode = true := by
  constructor
  · rintro ⟨before, split, made, makes⟩
    exact ⟨before, split, made.eq_nextNode, makes⟩
  · rintro ⟨before, split, rfl, makes⟩
    have success := feedAll_accepted (start precedence) tokens
    rw [split] at success
    obtain ⟨builder, first, -⟩ := feedAll_of_append success
    have made : Makes precedence before builder.nextId := ⟨builder, first, rfl⟩
    rw [made.eq_nextNode] at made
    exact ⟨before, split, made, makes⟩

theorem exists_createdFor_iff {index : Nat} :
    (∃ behind, CreatedFor precedence tokens (1 + index) token behind) ↔
      (makers precedence tokens)[index]? = some token := by
  rw [makers, Token.filter_getElem?_iff]
  constructor
  · rintro ⟨behind, created⟩
    obtain ⟨before, split, number, makes⟩ := createdFor_iff.mp created
    exact ⟨before, behind, split, (Nat.add_left_cancel number).symm, makes⟩
  · rintro ⟨before, behind, split, count, makes⟩
    exact ⟨behind, createdFor_iff.mpr ⟨before, split, by rw [← count]; rfl, makes⟩⟩

/-- Each accepted token that makes a node leaves a mark. -/
theorem map_mark?_makers (precedence : Precedence) (tokens : List Token) :
    (makers precedence tokens).map Token.mark? =
      (((start precedence).accepted tokens).filterMap Token.mark?).map some := by
  obtain ⟨terminals, reads, -⟩ := run_of_feedAll (feedAll_accepted (start precedence) tokens)
  rw [makers]
  generalize (start precedence).accepted tokens = taken at reads
  induction taken generalizing terminals with
  | nil => rfl
  | cons token rest inductionHypothesis =>
      cases terminals with
      | nil => simp [Reads] at reads
      | cons terminal others =>
          obtain ⟨known, readRest⟩ := List.cons.inj reads
          have same := Token.isSome_mark? known
          have further := inductionHypothesis others readRest
          cases left : token.mark? with
          | none =>
              rw [left] at same
              simp [← same, left, further]
          | some mark =>
              rw [left] at same
              simp [← same, left, further]

theorem mark?_of_makers {index : Nat} (found : (makers precedence tokens)[index]? = some token) :
    ∃ mark, token.mark? = some mark ∧
      (((start precedence).accepted tokens).filterMap Token.mark?)[index]? = some mark := by
  have same := congrArg (fun marks => marks[index]?) (map_mark?_makers precedence tokens)
  simp only [List.getElem?_map, found, Option.map_some] at same
  obtain ⟨mark, place, left⟩ := Option.map_eq_some_iff.mp same.symm
  exact ⟨mark, left.symm, place⟩

theorem leaves_accepted (precedence : Precedence) (tokens : List Token) :
    Numbered (Leaves fun id token => ∃ behind, CreatedFor precedence tokens id token behind) 1
      (((start precedence).accepted tokens).filterMap Token.mark?) := by
  rw [numbered_iff]
  intro index mark found
  have same := congrArg (fun marks => marks[index]?) (map_mark?_makers precedence tokens)
  simp only [List.getElem?_map, found, Option.map_some] at same
  obtain ⟨token, maker, left⟩ := Option.map_eq_some_iff.mp same
  exact ⟨token, exists_createdFor_iff.mpr maker, left⟩

/-- Whatever tokens are fed, and however many of them are refused, the traversal of the tree in
source order visits all nodes below the root in the order of their creation, and they have the
kinds and the texts of the accepted tokens that make nodes, one by one. -/
theorem feedOn_inOrder (precedence : Precedence) (tokens : List Token) :
    ((start precedence).feedOn tokens).tree.Visits
        (fun id token => ∃ behind, CreatedFor precedence tokens id token behind)
        (((start precedence).feedOn tokens).tree.children Tree.root)
        (List.range' 1 (makers precedence tokens).length) ∧
      ∀ index token, (makers precedence tokens)[index]? = some token →
        ∃ node, ((start precedence).feedOn tokens).tree.get? (1 + index) = some node ∧
          node.kind = token.nodeKind ∧ node.text = token.nodeText := by
  have stands := feedOn_stands precedence tokens
  constructor
  · have visits := stands.visits (leaves_accepted precedence tokens)
    have lengths := congrArg List.length (map_mark?_makers precedence tokens)
    simp only [List.length_map] at lengths
    rwa [← lengths] at visits
  · intro index token found
    obtain ⟨mark, left, place⟩ := mark?_of_makers found
    obtain ⟨waiting, bears, -⟩ := stands.bears
    obtain ⟨node, stored, kind, text, -⟩ := numbered_iff.mp bears index mark place
    obtain ⟨markKind, markText⟩ := Token.label_of_mark left
    exact ⟨node, stored, kind.trans markKind, text.trans markText⟩

end Builder

end GlslFormula
