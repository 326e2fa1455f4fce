import GlslFormula.Proofs.Arity
import GlslFormula.Proofs.Safety

namespace GlslFormula

namespace Tree

variable {precedence : Precedence} {tree : Tree} {created : NodeId → Token → Prop}

/-- The node `id` is `top` or below it. -/
def Descends (tree : Tree) : (top id : NodeId) → Prop :=
  Relation.ReflTransGen fun parent child => child ∈ tree.children parent

/-- A traversal visits only what is below its start. -/
theorem Visits.descends {ids visited : List NodeId} (visits : tree.Visits created ids visited)
    {id : NodeId} (member : id ∈ visited) : ∃ top ∈ ids, tree.Descends top id := by
  induction visits with
  | done => simp at member
  | value made kind after inductionHypothesis =>
      rcases List.mem_cons.mp member with rfl | later
      · exact ⟨id, List.mem_cons_self .., .refl⟩
      · obtain ⟨top, among, below⟩ := inductionHypothesis later
        exact ⟨top, List.mem_cons_of_mem _ among, below⟩
  | call made kind inside after insideHypothesis afterHypothesis =>
      rcases List.mem_append.mp member with here | later
      · refine ⟨_, List.mem_cons_self .., ?_⟩
        rcases List.mem_cons.mp here with rfl | deeper
        · exact .refl
        · obtain ⟨child, among, below⟩ := insideHypothesis deeper
          exact .head among below
      · obtain ⟨top, among, below⟩ := afterHypothesis later
        exact ⟨top, List.mem_cons_of_mem _ among, below⟩
  | operator made kind children before behind after left right afterHypothesis =>
      rcases List.mem_append.mp member with here | later
      · refine ⟨_, List.mem_cons_self .., ?_⟩
        rcases List.mem_append.mp here with deeper | other
        · obtain ⟨child, among, below⟩ := left deeper
          refine .head ?_ below
          rw [children, List.mem_singleton.mp among]
          exact List.mem_cons_self ..
        · rcases List.mem_cons.mp other with rfl | deeper
          · exact .refl
          · obtain ⟨child, among, below⟩ := right deeper
            refine .head ?_ below
            rw [children]
            exact List.mem_cons_of_mem _ among
      · obtain ⟨top, among, below⟩ := afterHypothesis later
        exact ⟨top, List.mem_cons_of_mem _ among, below⟩

/-- The root has one child as soon as there is a node around the hole or in it. -/
theorem Surrounds.children_root {context : Context} {hole : List NodeId}
    (around : tree.Surrounds precedence context hole) (single : hole.length ≤ 1) :
    (tree.children root).length ≤ 1 ∧ (hole.length = 1 → (tree.children root).length = 1) := by
  induction context generalizing hole with
  | whole =>
      rw [children_of_get? around]
      exact ⟨single, id⟩
  | operand operator left outer inductionHypothesis =>
      have outside := inductionHypothesis around.2.2 (Nat.le_refl 1)
      exact ⟨outside.1, fun _ => outside.2 rfl⟩
  | group outer inductionHypothesis => exact inductionHypothesis around single
  | argument name earlier outer inductionHypothesis =>
      have outside := inductionHypothesis around.2.2 (Nat.le_refl 1)
      exact ⟨outside.1, fun _ => outside.2 rfl⟩

end Tree

namespace Builder

variable {precedence : Precedence} {builder : Builder} {marks : List Mark} {tokens : List Token}
  {token : Token} {behind : List Token} {id : NodeId}

theorem Stands.children_root (stands : builder.Stands precedence marks) :
    (builder.tree.children Tree.root).length ≤ 1 ∧
      (builder.phase = .afterValue → (builder.tree.children Tree.root).length = 1) := by
  cases stands with
  | expects context waits =>
      refine ⟨(waits.built.around.children_root (Nat.zero_le 1)).1, ?_⟩
      simp [waits.phased]
  | named name outer waits =>
      refine ⟨(waits.built.around.children_root (Nat.zero_le 1)).1, ?_⟩
      simp [waits.phased]
  | behind context value reached =>
      have outside := reached.built.around.children_root (Nat.le_refl 1)
      exact ⟨outside.1, fun _ => outside.2 rfl⟩

theorem size_feedOn (precedence : Precedence) (tokens : List Token) :
    ((start precedence).feedOn tokens).tree.size = 1 + (makers precedence tokens).length := by
  rw [feedAll_size (feedAll_accepted (start precedence) tokens), makers,
    ← List.countP_eq_length_filter]
  rfl

/-- Each node of the store is visited, so it is below the root. -/
theorem descends_root (precedence : Precedence) (tokens : List Token)
    (inside : id < ((start precedence).feedOn tokens).tree.size) :
    ((start precedence).feedOn tokens).tree.Descends Tree.root id := by
  have visits := (feedOn_stands precedence tokens).visits (leaves_accepted precedence tokens)
  have lengths := congrArg List.length (map_mark?_makers precedence tokens)
  simp only [List.length_map] at lengths
  rw [size_feedOn, lengths] at inside
  cases id with
  | zero => exact .refl
  | succ index =>
      have visited := List.mem_range'_1.mpr ⟨Nat.le_add_left 1 index, inside⟩
      obtain ⟨top, child, below⟩ := visits.descends visited
      exact .head child below

/-- An operator has its two operands, or it is at the cursor and waits for the second one. -/
theorem children_of_operator (created : CreatedFor precedence tokens id token behind)
    (sign : token.kind.isOperator = true) :
    (((start precedence).feedOn tokens).tree.children id).length = 2 ∨
      id = ((start precedence).feedOn tokens).cursor ∧
        (((start precedence).feedOn tokens).tree.children id).length = 1 ∧
        ((start precedence).feedOn tokens).phase = .expectValue := by
  obtain ⟨before, split, rfl, makes⟩ := createdFor_iff.mp created
  obtain ⟨mark, left, place⟩ := mark?_of_makers (exists_createdFor_iff.mp ⟨behind, created⟩)
  obtain ⟨waiting, bears, pending⟩ := (feedOn_stands precedence tokens).bears
  obtain ⟨node, found, -, -, operands⟩ := numbered_iff.mp bears _ mark place
  have kind := Token.madeBy_of_mark left
  cases mark with
  | operator operator =>
      rw [Token.nextNode, Tree.children_of_get? found]
      rcases operands operator rfl with both | ⟨waits, one⟩
      · exact .inl both
      · obtain ⟨placed, phased⟩ := pending _ waits
        exact .inr ⟨placed.symm, one, phased⟩
  | number text | symbol text | call name =>
      rw [Mark.MadeBy] at kind
      simp [kind, TokenKind.isOperator] at sign

/-- These facts hold of a builder that was fed with tokens. -/
structure WellShaped (precedence : Precedence) (tokens : List Token) (builder : Builder) :
    Prop where
  sound : builder.Sound
  agree : ∀ parent child,
    child ∈ builder.tree.children parent ↔ builder.tree.parent? child = some parent
  rooted : ∀ id < builder.tree.size, builder.tree.Descends Tree.root id
  size : builder.tree.size = 1 + (makers precedence tokens).length
  single : (builder.tree.children Tree.root).length ≤ 1
  binary : ∀ id token behind, CreatedFor precedence tokens id token behind →
    token.kind.isOperator = true → (builder.tree.children id).length ≤ 2
  pending : ∀ id token behind, CreatedFor precedence tokens id token behind →
    token.kind.isOperator = true → (builder.tree.children id).length < 2 →
    id = builder.cursor ∧ (builder.tree.children id).length = 1 ∧ builder.phase = .expectValue
  complete : builder.phase = .afterValue →
    (builder.tree.children Tree.root).length = 1 ∧
    ∀ id token behind, CreatedFor precedence tokens id token behind →
      (token.kind.isOperator = true → (builder.tree.children id).length = 2) ∧
      (token.kind = .functionName →
        (builder.tree.children id).length = Token.argumentCount behind)

/-- Whatever tokens are fed, and however many of them are refused, the builder never breaks off and
its tree is well shaped. -/
theorem feedOn_wellShaped (precedence : Precedence) (tokens : List Token) :
    WellShaped precedence tokens ((start precedence).feedOn tokens) where
  sound := ((start_safe precedence).feedOn tokens).sound
  agree := ((start_safe precedence).feedOn tokens).linked.agree
  rooted id inside := descends_root precedence tokens inside
  size := size_feedOn precedence tokens
  single := (feedOn_stands precedence tokens).children_root.1
  binary id token behind created sign := by
    rcases children_of_operator created sign with both | ⟨-, one, -⟩ <;> omega
  pending id token behind created sign few := by
    rcases children_of_operator created sign with both | waits
    · omega
    · exact waits
  complete phased := by
    refine ⟨(feedOn_stands precedence tokens).children_root.2 phased, ?_⟩
    intro id token behind created
    refine ⟨?_, ?_⟩
    · intro sign
      apply hasChildren_of_createdFor created phased
      cases kind : token.kind <;> simp [kind, TokenKind.isOperator] at sign <;>
        simp [Token.arity?, kind]
    · intro named
      apply hasChildren_of_createdFor created phased
      simp [Token.arity?, named]

end Builder

end GlslFormula
