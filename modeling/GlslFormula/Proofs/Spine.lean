/-
This file shows that the operations between the cursor and the scope are sorted by rank. The climb
of an operator stops at the first one that it does not take over. In a sorted row the operations
further up stay too, so the climb finds the topmost one that is taken over.
-/
import GlslFormula.Proofs.Arrangement
import GlslFormula.Proofs.Insertion
import GlslFormula.Proofs.Safety

namespace GlslFormula

open Grammar

namespace Precedence

variable {precedence : Precedence} {upper middle lower : Operator}

/-- An operation of `upper` is not taken over when `lower` comes in. -/
def Stays (precedence : Precedence) (upper lower : Operator) : Prop :=
  precedence.mustClimb (precedence.rank upper) (some lower) = false

theorem stays_iff : precedence.Stays upper lower ↔
    precedence.rank upper < precedence.rank lower ∨
      precedence.rank upper = precedence.rank lower ∧
        precedence.climbsOnTie (some lower) = false := by
  unfold Stays
  rcases Nat.lt_trichotomy (precedence.rank upper) (precedence.rank lower) with
    looser | tie | tighter
  · simp [Link.mustClimb_of_gt looser, looser]
  · rw [Link.mustClimb_of_eq tie]
    simp [tie]
  · rw [Link.mustClimb_of_lt tighter]
    simp [Nat.lt_asymm tighter, Nat.ne_of_gt tighter]

theorem Stays.rank_le (stays : precedence.Stays upper lower) :
    precedence.rank upper ≤ precedence.rank lower := by
  rcases stays_iff.mp stays with looser | ⟨tie, -⟩
  · exact Nat.le_of_lt looser
  · exact Nat.le_of_eq tie

/-- An operation that stays keeps those above it in place. -/
theorem Stays.trans (first : precedence.Stays upper middle)
    (second : precedence.Stays middle lower) : precedence.Stays upper lower := by
  have rising := first.rank_le
  rcases stays_iff.mp second with looser | ⟨tie, right⟩
  · exact stays_iff.mpr (.inl (Nat.lt_of_le_of_lt rising looser))
  · rw [tie] at rising
    rcases Nat.lt_or_eq_of_le rising with looser | again
    · exact stays_iff.mpr (.inl looser)
    · exact stays_iff.mpr (.inr ⟨again, right⟩)

/-- In the conventional table only powers stay on a tie. -/
theorem Stays.rank_lt_or_powers (stays : Precedence.conventional.Stays upper lower) :
    Precedence.conventional.rank upper < Precedence.conventional.rank lower ∨
      upper = .pow ∧ lower = .pow := by
  rcases stays_iff.mp stays with looser | ⟨tie, right⟩
  · exact .inl looser
  · have power : lower = .pow := by
      by_contra other
      rw [Link.climbsOnTie_conventional other] at right
      simp at right
    rw [power] at tie
    exact .inr ⟨Link.isPower_of_tie tie.symm, power⟩

end Precedence

namespace Context

variable {precedence : Precedence} {context : Context}

/-- The pending operators inside the innermost scope with their nodes, the lowest one first. -/
def spine : Context → List (NodeId × Operator)
  | .operand operator left outer => (outer.next + left.size, operator) :: outer.spine
  | .whole | .group _ | .argument _ _ _ => []

/-- Each pending operator stayed when the later ones of its chain came in. -/
def Settled (precedence : Precedence) : Context → Prop
  | .whole => True
  | .operand operator _ outer =>
      (∀ entry ∈ outer.spine, precedence.Stays entry.2 operator) ∧ outer.Settled precedence
  | .group outer => outer.Settled precedence
  | .argument _ _ outer => outer.Settled precedence

theorem Settled.pairwise (settled : context.Settled precedence) :
    context.spine.Pairwise fun lower upper => precedence.Stays upper.2 lower.2 := by
  induction context with
  | operand operator left outer inductionHypothesis =>
      exact List.pairwise_cons.mpr ⟨settled.1, inductionHypothesis settled.2⟩
  | _ => exact .nil

/-- A climb ends where all that is left stays. -/
theorem Settled.climb (settled : context.Settled precedence) (incoming : Operator)
    (value : Expression) :
    (context.climb precedence incoming value).1.Settled precedence ∧
      ∀ entry ∈ (context.climb precedence incoming value).1.spine,
        precedence.Stays entry.2 incoming := by
  induction context generalizing value with
  | operand operator left outer inductionHypothesis =>
      rw [Context.climb]
      split
      · exact inductionHypothesis settled.2 _
      case isFalse stops =>
        have stays : precedence.Stays operator incoming := Bool.eq_false_iff.mpr stops
        -- The operation that stops the climb stays, and so do all that it left in place.
        refine ⟨settled, ?_⟩
        intro entry member
        rcases List.mem_cons.mp member with rfl | above
        · exact stays
        · exact (settled.1 entry above).trans stays
  | _ => exact ⟨settled, by simp [Context.climb, spine]⟩

theorem Settled.collapse (settled : context.Settled precedence) (value : Expression) :
    (context.collapse value).1.Settled precedence := by
  induction context generalizing value with
  | operand operator left outer inductionHypothesis => exact inductionHypothesis settled.2 _
  | _ => exact settled

/-- A climb passes the lower end of the spine, and its result is the last node that it passes. -/
theorem climb_spine (precedence : Precedence) (incoming : Operator) (context : Context)
    (value : Expression) :
    ∃ passed, context.spine = passed ++ (context.climb precedence incoming value).1.spine ∧
      (∀ entry ∈ passed, ¬ precedence.Stays entry.2 incoming) ∧
      (context.climb precedence incoming value).2.top
          (context.climb precedence incoming value).1.next =
        (passed.map Prod.fst).getLastD (value.top context.next) := by
  induction context generalizing value with
  | operand operator left outer inductionHypothesis =>
      rw [climb]
      split
      case isTrue climbs =>
        obtain ⟨passed, split, climbed, last⟩ := inductionHypothesis (.operator operator left value)
        refine ⟨(outer.next + left.size, operator) :: passed, ?_, ?_, ?_⟩
        · rw [spine, split, List.cons_append]
        · intro entry member
          rcases List.mem_cons.mp member with rfl | above
          · simp [Precedence.Stays, climbs]
          · exact climbed entry above
        · rw [last, List.map_cons, List.getLastD_cons]
          rfl
      · exact ⟨[], rfl, by simp, rfl⟩
  | _ => exact ⟨[], rfl, by simp, rfl⟩

/-- In a settled context a climb passes all operators that do not stay. -/
theorem Settled.climb_spine (settled : context.Settled precedence) (incoming : Operator)
    (value : Expression) :
    ∃ passed, passed <+: context.spine ∧
      (∀ entry, entry ∈ passed ↔ entry ∈ context.spine ∧ ¬ precedence.Stays entry.2 incoming) ∧
      (context.climb precedence incoming value).2.top
          (context.climb precedence incoming value).1.next =
        (passed.map Prod.fst).getLastD (value.top context.next) := by
  obtain ⟨passed, split, climbs, last⟩ := context.climb_spine precedence incoming value
  have rest := (settled.climb incoming value).2
  refine ⟨passed, ⟨_, split.symm⟩, ?_, last⟩
  intro entry
  rw [split, List.mem_append]
  constructor
  · intro member
    exact ⟨.inl member, climbs entry member⟩
  · rintro ⟨member | above, moves⟩
    · exact member
    · exact absurd (rest entry above) moves

end Context

namespace Position

variable {precedence : Precedence} {position next : Position} {terminal : Terminal}

/-- All operators that wait for an operand are settled. -/
def Settled (precedence : Precedence) : Position → Prop
  | .expects context => context.Settled precedence
  | .named _ outer => outer.Settled precedence
  | .behind context _ => context.Settled precedence

theorem Leads.settled (leads : position.Leads precedence terminal next)
    (settled : position.Settled precedence) : next.Settled precedence := by
  cases leads with
  | number | symbol | groupOpen | name | argumentsOpen => exact settled
  | joint context value joint =>
      have climbed := Context.Settled.climb settled joint.operator value
      exact ⟨climbed.2, climbed.1⟩
  | groupClose context outer value inner ends
  | argumentsClose context outer value inner name earlier ends
  | comma context outer value inner name earlier ends =>
      have collapsed := Context.Settled.collapse settled value
      rw [ends] at collapsed
      exact collapsed

end Position

namespace Tree

variable {precedence : Precedence} {tree : Tree} {context : Context} {hole : List NodeId}
  {id top each : NodeId} {path segment rest : List NodeId}

/-- The node is an operation of the operator, and its attribute is the rank of the operator. A call
that is named like an operator has another rank. -/
def Carries (precedence : Precedence) (tree : Tree) (id : NodeId) (operator : Operator) : Prop :=
  ∃ node, tree.get? id = some node ∧ node.kind = .operation ∧ node.text = operator.symbol ∧
    node.attributes.get? precedenceAttribute = some (toString (precedence.rank operator))

theorem Surrounds.carries (around : tree.Surrounds precedence context hole) :
    ∀ entry ∈ context.spine, tree.Carries precedence entry.1 entry.2 := by
  induction context generalizing hole with
  | operand operator left outer inductionHypothesis =>
      intro entry member
      rcases List.mem_cons.mp member with rfl | above
      · refine ⟨_, around.1, rfl, rfl, ?_⟩
        simp [Node.operation, Attributes.get?]
      · exact inductionHypothesis around.2.2 entry above
  | _ => simp [Context.spine]

/-- The way up goes along the spine to the scope. -/
theorem Surrounds.rises (around : tree.Surrounds precedence context hole) :
    ∃ rest, tree.Path context.node
      (context.spine.map Prod.fst ++ context.scopeNode :: rest) := by
  induction context generalizing hole with
  | whole => exact ⟨[], .top (parent?_of_get? around)⟩
  | operand operator left outer inductionHypothesis =>
      obtain ⟨rest, higher⟩ := inductionHypothesis around.2.2
      exact ⟨rest, .step (parent?_of_get? around.1) higher⟩
  | group outer inductionHypothesis =>
      obtain ⟨rest, higher⟩ := inductionHypothesis around
      obtain ⟨above, same⟩ := higher.exists_cons
      exact ⟨above, same ▸ higher⟩
  | argument name earlier outer inductionHypothesis =>
      obtain ⟨rest, higher⟩ := inductionHypothesis around.2.2
      exact ⟨_, .step (parent?_of_get? around.1) higher⟩

theorem Surrounds.parent?_root (around : tree.Surrounds precedence context hole) :
    tree.parent? root = none := by
  induction context generalizing hole with
  | whole => exact parent?_of_get? around
  | operand operator left outer inductionHypothesis => exact inductionHypothesis around.2.2
  | group outer inductionHypothesis => exact inductionHypothesis around
  | argument name earlier outer inductionHypothesis => exact inductionHypothesis around.2.2

/-- Each node of a path has the later ones above it. -/
theorem Path.pairwise (rises : tree.Path id path) : path.Pairwise tree.HasAncestor := by
  induction rises with
  | top orphan => exact List.pairwise_singleton _ _
  | step link higher inductionHypothesis =>
      refine List.pairwise_cons.mpr ⟨?_, inductionHypothesis⟩
      intro above member
      exact (Path.step link higher).hasAncestor_iff.mpr member

/-- The nodes strictly between two nodes are those of the path between them. -/
theorem Linked.mem_segment_iff (linked : tree.Linked)
    (rises : tree.Path id (id :: (segment ++ top :: rest))) :
    tree.HasAncestor id each ∧ tree.HasAncestor each top ↔ each ∈ segment := by
  have ordered := List.pairwise_cons.mp rises.pairwise
  have parts := List.pairwise_append.mp ordered.2
  constructor
  · rintro ⟨above, below⟩
    rcases List.mem_append.mp (rises.hasAncestor_iff.mp above) with inside | outside
    · exact inside
    · rcases List.mem_cons.mp outside with rfl | higher
      · exact absurd below (linked.not_hasAncestor_self each)
      · have onward := (List.pairwise_cons.mp parts.2.1).1 each higher
        exact absurd (onward.trans below) (linked.not_hasAncestor_self top)
  · intro member
    exact ⟨ordered.1 each (List.mem_append_left _ member),
      parts.2.2 each member top (List.mem_cons_self ..)⟩

end Tree

namespace Builder

variable {precedence : Precedence} {builder : Builder} {context : Context} {value : Expression}
  {id point : NodeId} {incoming : Operator}

/-- An operation is strictly between the cursor and the scope. -/
structure OnSpine (builder : Builder) (id : NodeId) : Prop where
  operation : builder.tree.isOperation id = true
  below : builder.tree.HasAncestor builder.cursor id
  above : builder.tree.HasAncestor id builder.scopeNode

/-- The incoming operator must climb over this operation of the spine. -/
def Climbed (builder : Builder) (incoming : Operator) (id : NodeId) : Prop :=
  builder.OnSpine id ∧
    builder.precedence.mustClimb (builder.rankOf id) (some incoming) = true

/-- The node is the topmost operation that the operator must climb over, or the cursor when there is
none. -/
structure Topmost (builder : Builder) (incoming : Operator) (point : NodeId) : Prop where
  chosen : builder.Climbed incoming point ∨
    point = builder.cursor ∧ ∀ id, ¬ builder.Climbed incoming id
  highest : ∀ id, builder.Climbed incoming id →
    id = point ∨ builder.tree.HasAncestor id point

/-- The operations on the spine are sorted by rank, so a climb that stops at the first one that
stays finds the topmost one that does not, and the new operator gets its place. -/
structure Sorted (builder : Builder) : Prop where
  enclosed : builder.tree.HasAncestor builder.cursor builder.scopeNode
  operators : ∀ id, builder.OnSpine id →
    ∃ operator, builder.tree.Carries builder.precedence id operator
  rising : ∀ lower upper, builder.OnSpine lower → builder.OnSpine upper →
    builder.tree.HasAncestor lower upper → builder.rankOf upper ≤ builder.rankOf lower
  strict : builder.precedence = .conventional →
    ∀ lower upper, builder.OnSpine lower → builder.OnSpine upper →
      builder.tree.HasAncestor lower upper → builder.rankOf upper < builder.rankOf lower ∨
        builder.tree.Carries builder.precedence upper .pow ∧
          builder.tree.Carries builder.precedence lower .pow
  topmost : ∀ incoming, builder.Topmost incoming (builder.insertionPoint (some incoming))
  inside : ∀ incoming, builder.insertionPoint (some incoming) ≠ builder.scopeNode ∧
    builder.insertionPoint (some incoming) ≠ Tree.root
  attaches : ∀ token joint, token.lexeme.terminal? = some (.joint joint) →
    ∃ fed parent, builder.feed token = .ok fed ∧
      builder.tree.parent? (builder.insertionPoint (some joint.operator)) = some parent ∧
      (builder.tree.newOperation joint.operator.symbol
          (builder.precedence.rank joint.operator)).Inserted fed.tree parent
        (builder.insertionPoint (some joint.operator)) builder.nextId

/-- The builder occupies a settled position. -/
def Settles (precedence : Precedence) (builder : Builder) : Prop :=
  ∃ position, builder.Occupies precedence position ∧ position.Settled precedence

theorem feedOn_settles (precedence : Precedence) (tokens : List Token) :
    ((start precedence).feedOn tokens).Settles precedence := by
  apply feedOn_keeps
  · rintro builder token fed ⟨position, occupies, settled⟩ success
    obtain ⟨terminal, known, next, leads, entered⟩ := occupies.feed success
    exact ⟨next, entered, leads.settled settled⟩
  · exact ⟨.expects .whole, start_waits precedence, trivial⟩

theorem rankOf_of_carries {operator : Operator}
    (carries : builder.tree.Carries precedence id operator) :
    builder.rankOf id = precedence.rank operator := by
  obtain ⟨node, found, -, -, carried⟩ := carries
  rw [rankOf, Tree.attribute?, found, Option.bind_some, carried, Option.bind_some, readByte?_rank]

theorem isOperation_of_carries {operator : Operator}
    (carries : builder.tree.Carries precedence id operator) :
    builder.tree.isOperation id = true := by
  obtain ⟨node, found, kind, -⟩ := carries
  rw [isOperation_of_get? found, decide_eq_true kind]

namespace Reaches

/-- The way up from the cursor goes along the spine of the context. -/
theorem rises (reached : builder.Reaches precedence context value) :
    ∃ rest, builder.tree.Path builder.cursor
      (builder.cursor :: (context.spine.map Prod.fst ++ builder.scopeNode :: rest)) := by
  obtain ⟨node, found, link⟩ := reached.built.inside.parent_top
  obtain ⟨rest, higher⟩ := reached.built.around.rises
  rw [← scopeNode_eq reached.nested] at higher
  refine ⟨rest, .step ?_ higher⟩
  rw [reached.placed, Tree.parent?_of_get? found, link]

theorem enclosed (reached : builder.Reaches precedence context value) :
    builder.tree.HasAncestor builder.cursor builder.scopeNode := by
  obtain ⟨rest, rises⟩ := reached.rises
  exact rises.hasAncestor_iff.mpr (by simp)

/-- The spine of the builder is the spine of the context. -/
theorem onSpine_iff (reached : builder.Reaches precedence context value) (safe : builder.Safe) :
    builder.OnSpine id ↔ ∃ operator, (id, operator) ∈ context.spine := by
  obtain ⟨rest, rises⟩ := reached.rises
  have between : builder.tree.HasAncestor builder.cursor id ∧
      builder.tree.HasAncestor id builder.scopeNode ↔ id ∈ context.spine.map Prod.fst :=
    safe.linked.mem_segment_iff rises
  constructor
  · rintro ⟨-, below, above⟩
    obtain ⟨entry, member, rfl⟩ := List.mem_map.mp (between.mp ⟨below, above⟩)
    exact ⟨entry.2, member⟩
  · rintro ⟨operator, member⟩
    obtain ⟨below, above⟩ := between.mpr (List.mem_map.mpr ⟨_, member, rfl⟩)
    exact ⟨isOperation_of_carries (reached.built.around.carries _ member), below, above⟩

/-- The spine goes up. -/
theorem pairwise (reached : builder.Reaches precedence context value) :
    context.spine.Pairwise fun lower upper => builder.tree.HasAncestor lower.1 upper.1 := by
  obtain ⟨rest, rises⟩ := reached.rises
  have ordered := (List.pairwise_cons.mp rises.pairwise).2
  exact List.pairwise_map.mp (List.pairwise_append.mp ordered).1

theorem exists_carries (reached : builder.Reaches precedence context value) (safe : builder.Safe)
    (spine : builder.OnSpine id) : ∃ operator, builder.tree.Carries precedence id operator := by
  obtain ⟨operator, member⟩ := (reached.onSpine_iff safe).mp spine
  exact ⟨operator, reached.built.around.carries _ member⟩

/-- On a settled spine an upper operation stays when a lower one comes in. -/
theorem stays (reached : builder.Reaches precedence context value) (safe : builder.Safe)
    (settled : context.Settled precedence) {lower upper : NodeId}
    (lowerSpine : builder.OnSpine lower) (upperSpine : builder.OnSpine upper)
    (above : builder.tree.HasAncestor lower upper) :
    ∃ low high, builder.tree.Carries precedence lower low ∧
      builder.tree.Carries precedence upper high ∧ precedence.Stays high low := by
  have irreflexive := safe.linked.not_hasAncestor_self lower
  obtain ⟨low, lowMember⟩ := (reached.onSpine_iff safe).mp lowerSpine
  obtain ⟨high, highMember⟩ := (reached.onSpine_iff safe).mp upperSpine
  have carries := reached.built.around.carries
  refine ⟨low, high, carries _ lowMember, carries _ highMember, ?_⟩
  obtain ⟨before, behind, split⟩ := List.append_of_mem lowMember
  have climbs := reached.pairwise
  have sorted := settled.pairwise
  rw [split] at highMember climbs sorted
  -- An entry in front of the lower one would be below it, which closes a cycle.
  rcases List.mem_append.mp highMember with earlier | later
  · have back := (List.pairwise_append.mp climbs).2.2 _ earlier _ (List.mem_cons_self ..)
    exact absurd (above.trans back) irreflexive
  · rcases List.mem_cons.mp later with same | higher
    · rw [(Prod.mk.inj same).1] at above
      exact absurd above irreflexive
    · exact (List.pairwise_cons.mp (List.pairwise_append.mp sorted).2.1).1 _ higher

/-- The climbed operations are those of the spine that do not stay. -/
theorem climbed_iff (reached : builder.Reaches precedence context value) (safe : builder.Safe) :
    builder.Climbed incoming id ↔
      ∃ operator, (id, operator) ∈ context.spine ∧ ¬ precedence.Stays operator incoming := by
  have ranks (operator : Operator) (member : (id, operator) ∈ context.spine) :
      builder.rankOf id = precedence.rank operator :=
    rankOf_of_carries (reached.built.around.carries _ member)
  rw [Climbed, reached.onSpine_iff safe, reached.ranked]
  constructor
  · rintro ⟨⟨operator, member⟩, climbs⟩
    refine ⟨operator, member, ?_⟩
    rw [Precedence.Stays, ← ranks operator member, climbs]
    simp
  · rintro ⟨operator, member, climbs⟩
    refine ⟨⟨operator, member⟩, ?_⟩
    rw [ranks operator member]
    simpa [Precedence.Stays] using climbs

/-- The climb finds the topmost operation that the operator must climb over. -/
theorem topmost (reached : builder.Reaches precedence context value) (safe : builder.Safe)
    (settled : context.Settled precedence) (incoming : Operator) :
    builder.Topmost incoming (builder.insertionPoint (some incoming)) := by
  obtain ⟨passed, part, passes, last⟩ := settled.climb_spine incoming value
  have climbed_iff (id : NodeId) :
      builder.Climbed incoming id ↔ ∃ operator, (id, operator) ∈ passed := by
    simp only [reached.climbed_iff safe, passes]
  have ordered := reached.pairwise.sublist part.sublist
  rw [reached.insertionPoint_some, last, ← reached.placed]
  rcases List.eq_nil_or_concat' passed with rfl | ⟨earlier, highest, rfl⟩
  · have none_climbed (id : NodeId) : ¬ builder.Climbed incoming id := by
      rw [climbed_iff]
      simp
    exact ⟨.inr ⟨rfl, none_climbed⟩, fun id climbed => absurd climbed (none_climbed id)⟩
  · have found : ((earlier ++ [highest]).map Prod.fst).getLastD builder.cursor = highest.1 := by
      simp
    rw [found]
    constructor
    · exact .inl ((climbed_iff highest.1).mpr ⟨highest.2, by simp⟩)
    · intro id climbed
      obtain ⟨operator, member⟩ := (climbed_iff id).mp climbed
      rcases List.mem_append.mp member with before | same
      · have below := (List.pairwise_append.mp ordered).2.2
        exact .inr (below _ before highest (List.mem_singleton_self _))
      · rw [← List.mem_singleton.mp same]
        exact .inl rfl

end Reaches

/-- The topmost operation stays inside the scope. -/
theorem Topmost.hasAncestor (topmost : builder.Topmost incoming point)
    (enclosed : builder.tree.HasAncestor builder.cursor builder.scopeNode) :
    builder.tree.HasAncestor point builder.scopeNode := by
  rcases topmost.chosen with climbed | ⟨rfl, -⟩
  · exact climbed.1.above
  · exact enclosed

/-- The insertion point is neither the scope nor the root. -/
theorem Topmost.inside (topmost : builder.Topmost incoming point)
    (reached : builder.Reaches precedence context value) (safe : builder.Safe) :
    point ≠ builder.scopeNode ∧ point ≠ Tree.root := by
  have below := topmost.hasAncestor reached.enclosed
  constructor
  · rintro rfl
    exact safe.linked.not_hasAncestor_self _ below
  · rintro rfl
    obtain ⟨parent, link, -⟩ := Relation.TransGen.head'_iff.mp below
    rw [reached.built.around.parent?_root] at link
    simp at link

/-- A node that has a parent makes room for the new operator. -/
theorem Safe.inserted_operator (safe : builder.Safe) {operator : Operator} {parent : NodeId}
    (link : builder.tree.parent? (builder.insertionPoint (some operator)) = some parent) :
    (builder.tree.newOperation operator.symbol (builder.precedence.rank operator)).Inserted
      (builder.perform (builder.placeOperator operator)).tree parent
      (builder.insertionPoint (some operator)) builder.nextId := by
  have bound := safe.insertionPoint_lt (some operator)
  have parents := Tree.parent?_newOperation builder.tree operator.symbol
    (builder.precedence.rank operator)
  have linked := safe.linked.newOperation operator.symbol (builder.precedence.rank operator)
  have size := Tree.size_newOperation builder.tree operator.symbol
    (builder.precedence.rank operator)
  have edits : (builder.perform (builder.placeOperator operator)).tree =
      (builder.tree.newOperation operator.symbol (builder.precedence.rank operator)).applyOrKeep
        (.insertAbove (builder.insertionPoint (some operator)) builder.nextId) := by
    rw [Builder.perform, placeOperator, nextId, Tree.applyAll_newOperation]
    rfl
  rw [edits]
  generalize builder.tree.newOperation operator.symbol (builder.precedence.rank operator) = extended
    at parents linked size ⊢
  rw [← parents] at link
  have inside : builder.nextId < extended.size := by
    rw [size]
    exact Nat.lt_succ_self _
  have apart (path : List NodeId)
      (rises : extended.Path (builder.insertionPoint (some operator)) path) :
      builder.nextId ∉ path.tail := by
    intro member
    exact safe.linked.fresh_not_mem bound parents rises (List.mem_of_mem_tail member)
  have different : builder.nextId ≠ builder.insertionPoint (some operator) := Nat.ne_of_gt bound
  rw [Tree.applyOrKeep, Tree.apply_insertAbove, linked.insertAbove_ok link inside different apart]
  exact linked.inserted link inside different apart

/-- Behind a value the spine is sorted, whatever tokens were fed and however many of them were
refused. -/
theorem feedOn_sorted (precedence : Precedence) (tokens : List Token)
    (phased : ((start precedence).feedOn tokens).phase = .afterValue) :
    ((start precedence).feedOn tokens).Sorted := by
  obtain ⟨position, occupies, settled⟩ := feedOn_settles precedence tokens
  have safe := (start_safe precedence).feedOn tokens
  generalize (start precedence).feedOn tokens = builder at phased occupies safe ⊢
  cases position with
  | expects context => simp [occupies.phased] at phased
  | named name outer => simp [occupies.phased] at phased
  | behind context value =>
      have reached : builder.Reaches precedence context value := occupies
      obtain rfl := reached.ranked
      have topmost := reached.topmost safe settled
      constructor
      case enclosed => exact reached.enclosed
      case operators => exact fun id spine => reached.exists_carries safe spine
      case rising =>
        intro lower upper lowerSpine upperSpine above
        obtain ⟨low, high, lowCarries, highCarries, stays⟩ :=
          reached.stays safe settled lowerSpine upperSpine above
        rw [rankOf_of_carries lowCarries, rankOf_of_carries highCarries]
        exact stays.rank_le
      case strict =>
        intro table lower upper lowerSpine upperSpine above
        obtain ⟨low, high, lowCarries, highCarries, stays⟩ :=
          reached.stays safe settled lowerSpine upperSpine above
        rw [rankOf_of_carries lowCarries, rankOf_of_carries highCarries]
        rw [table] at lowCarries highCarries stays ⊢
        rcases stays.rank_lt_or_powers with less | ⟨rfl, rfl⟩
        · exact .inl less
        · exact .inr ⟨highCarries, lowCarries⟩
      case topmost => exact topmost
      case inside => exact fun incoming => (topmost incoming).inside reached safe
      case attaches =>
        intro token joint known
        have below := (topmost joint.operator).hasAncestor reached.enclosed
        obtain ⟨parent, link, -⟩ := Relation.TransGen.head'_iff.mp below
        exact ⟨_, parent, feed_eq (plan_joint reached.phased known), link,
          safe.inserted_operator link⟩

/-- These are the tokens of `2*/(3-4^5^6`. The quotient is refused. -/
def openTokens : List Token :=
  [⟨.number, "2", .single 0⟩, ⟨.operator, "*", .single 1⟩, ⟨.operator, "/", .single 2⟩,
    ⟨.parenthesisOpen, "(", .single 3⟩, ⟨.number, "3", .single 4⟩, ⟨.operator, "-", .single 5⟩,
    ⟨.number, "4", .single 6⟩, ⟨.operator, "^", .single 7⟩, ⟨.number, "5", .single 8⟩,
    ⟨.operator, "^", .single 9⟩, ⟨.number, "6", .single 10⟩]

/-- The first product is the scope. A second one climbs over both powers, and the difference
stays. -/
theorem feedOn_sorted_sample :
    ((start .conventional).feedOn openTokens).phase = .afterValue ∧
      ((start .conventional).feedOn openTokens).Sorted ∧
      ((start .conventional).feedOn openTokens).scopeNode = 2 ∧
      ((start .conventional).feedOn openTokens).insertionPoint (some .mul) = 6 := by
  have phased : ((start .conventional).feedOn openTokens).phase = .afterValue := by
    decide +kernel
  exact ⟨phased, feedOn_sorted .conventional openTokens phased, by decide +kernel,
    by decide +kernel⟩

end Builder

end GlslFormula
