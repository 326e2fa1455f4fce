import GlslFormula.Proofs.Lossless
import GlslFormula.Proofs.Recovery
import GlslFormula.Proofs.Sketch

namespace GlslFormula

open Shader

section Spelled

variable {text : String}

theorem Quotable.of_forall (present : text ≠ "")
    (plain : ∀ c ∈ text.toList, c ≠ '"' ∧ c ≠ '\n') : Quotable text where
  present := present
  unquoted member := (plain '"' member).1 rfl
  unbroken member := (plain '\n' member).2 rfl

theorem ne_of_isDigit {c : Char} (digit : c.isDigit = true) : c ≠ '"' ∧ c ≠ '\n' := by
  constructor <;> rintro rfl <;> simp at digit

theorem ne_of_mem_isInteger {text : List Char} (isInteger : IsInteger text) {c : Char}
    (member : c ∈ text) : c ≠ '"' ∧ c ≠ '\n' := by
  obtain ⟨sign, digits, rfl, isSign, -, isDigits⟩ := isInteger
  rcases List.mem_append.mp member with first | later
  · obtain rfl : c = '-' := by
      rcases isSign with rfl | rfl
      · simp at first
      · exact List.mem_singleton.mp first
    decide
  · exact ne_of_isDigit (isDigits c later)

theorem Shader.IsLiteral.quotable (isLiteral : IsLiteral text) : Quotable text := by
  apply Quotable.of_forall
  · rintro rfl
    obtain ⟨c, isHead, -⟩ := isLiteral.head
    simp at isHead
  · intro c member
    rcases isLiteral with isInteger | ⟨whole, digits, spelled, isInteger, isDigits⟩
    · exact ne_of_mem_isInteger isInteger member
    · rw [spelled, List.mem_append, List.mem_cons] at member
      rcases member with first | rfl | later
      · exact ne_of_mem_isInteger isInteger first
      · decide
      · exact ne_of_isDigit (isDigits c later)

theorem quotable_of_isIdentifier (isIdentifier : IsIdentifier text.toList) : Quotable text := by
  apply Quotable.of_forall
  · rintro rfl
    obtain ⟨first, rest, spelled, -⟩ := isIdentifier
    simp at spelled
  · intro c member
    rcases mem_of_isIdentifier isIdentifier member with isAlpha | isDigit | rfl
    · constructor <;> rintro rfl <;> simp at isAlpha
    · exact ne_of_isDigit isDigit
    · decide

theorem Operator.quotable_symbol (operator : Operator) : Quotable operator.symbol := by
  cases operator <;> exact ⟨by decide, by decide, by decide⟩

theorem quotable_toString (number : Nat) : Quotable (toString number) := by
  apply Quotable.of_forall Nat.repr_ne_empty
  intro c member
  exact ne_of_isDigit (isDigits_toString number c member)

/-- A name is no sign of an operator. -/
theorem Operator.symbol_ne_of_isIdentifier (operator : Operator)
    (isIdentifier : IsIdentifier text.toList) : operator.symbol ≠ text := by
  rintro rfl
  have missing := lookup_operators_of_isIdentifier isIdentifier
  cases operator <;> simp [operators, symbol] at missing

/-- The text of the mark is one that a scanner gives to such a mark. -/
def Mark.Spelled : Mark → Prop
  | .number text => IsLiteral text
  | .symbol text => IsIdentifier text.toList
  | .operator _ => True
  | .call name => IsIdentifier name.toList

theorem spelled_of_tokenize {formula : String} {tokens : List Token}
    (scanned : tokenize formula = .ok tokens) :
    ∀ mark ∈ tokens.filterMap Token.mark?, mark.Spelled := by
  intro mark member
  obtain ⟨token, inside, left⟩ := List.mem_filterMap.mp member
  have wellFormed := wellFormed_of_tokenize scanned token inside
  obtain ⟨terminal, known, leaves⟩ := Option.bind_eq_some_iff.mp left
  generalize token.lexeme = lexeme at known wellFormed
  obtain ⟨kind, text⟩ := lexeme
  cases kind with
  | number | symbol | functionName =>
      cases known
      cases leaves
      exact wellFormed
  | operator =>
      obtain ⟨operator, -, rfl⟩ := Option.map_eq_some_iff.mp known
      cases leaves
      trivial
  | implicitMultiply =>
      cases known
      cases leaves
      trivial
  | _ =>
      cases known
      cases leaves

end Spelled

/-- The face of an operation with this rank. -/
def Face.operation (text : String) (rank : Nat) : Face :=
  ⟨.operation, text, [(precedenceAttribute, toString rank)]⟩

theorem Face.operation_inj {text otherText : String} {rank otherRank : Nat} :
    operation text rank = operation otherText otherRank ↔
      text = otherText ∧ toString rank = toString otherRank := by
  simp [operation]

/-- A table gives an operation nothing but its face. -/
theorem Node.operation_congr {text : String} {rank otherRank : Nat}
    (same : Face.operation text rank = Face.operation text otherRank) :
    operation text rank = operation text otherRank := by
  funext children parent
  rw [operation, operation, (Face.operation_inj.mp same).2]

namespace Expression

variable {first second : Precedence}

mutual

/-- The outline of a tree that holds the expression shows this. -/
def sketch (precedence : Precedence) : Expression → Sketch
  | .number text => .node ⟨.number, text, []⟩ []
  | .symbol text => .node ⟨.symbol, text, []⟩ []
  | .operator sign left right =>
      .node (.operation sign.symbol (precedence.rank sign))
        [left.sketch precedence, right.sketch precedence]
  | .call name arguments =>
      .node (.operation name precedence.functionRank) (sketchAll precedence arguments)

def sketchAll (precedence : Precedence) : List Expression → List Sketch
  | [] => []
  | expression :: rest => expression.sketch precedence :: sketchAll precedence rest

end

mutual

theorem legible_sketch (precedence : Precedence) (expression : Expression)
    (spelled : ∀ mark ∈ expression.marks, mark.Spelled) :
    (expression.sketch precedence).Legible := by
  cases expression with
  | number text =>
      rw [marks, List.forall_mem_singleton] at spelled
      exact ⟨⟨IsLiteral.quotable spelled, .inl rfl⟩, trivial⟩
  | symbol text =>
      rw [marks, List.forall_mem_singleton] at spelled
      exact ⟨⟨quotable_of_isIdentifier spelled, .inl rfl⟩, trivial⟩
  | operator sign left right =>
      have ranked := quotable_toString (precedence.rank sign)
      rw [marks, List.forall_mem_append, List.forall_mem_cons] at spelled
      exact ⟨⟨sign.quotable_symbol, .inr ⟨_, rfl, ranked⟩⟩,
        left.legible_sketch precedence spelled.1, right.legible_sketch precedence spelled.2.2,
        trivial⟩
  | call name arguments =>
      have ranked := quotable_toString precedence.functionRank
      rw [marks, List.forall_mem_cons] at spelled
      exact ⟨⟨quotable_of_isIdentifier spelled.1, .inr ⟨_, rfl, ranked⟩⟩,
        legibleAll_sketchAll precedence arguments spelled.2⟩

theorem legibleAll_sketchAll (precedence : Precedence) (expressions : List Expression)
    (spelled : ∀ mark ∈ marksAll expressions, mark.Spelled) :
    Sketch.LegibleAll (sketchAll precedence expressions) := by
  match expressions with
  | [] => trivial
  | expression :: rest =>
      rw [marksAll, List.forall_mem_append] at spelled
      exact ⟨expression.legible_sketch precedence spelled.1,
        legibleAll_sketchAll precedence rest spelled.2⟩

end

mutual

/-- A sketch tells its expression, because the name of a call is no sign. -/
theorem eq_of_sketch (expression other : Expression)
    (spelled : ∀ mark ∈ expression.marks, mark.Spelled)
    (spelledToo : ∀ mark ∈ other.marks, mark.Spelled)
    (same : expression.sketch first = other.sketch second) : expression = other := by
  match expression, other with
  | .number text, .number other => simpa [sketch] using same
  | .symbol text, .symbol other => simpa [sketch] using same
  | .operator sign left right, .operator otherSign otherLeft otherRight =>
      simp only [sketch, Sketch.node.injEq, Face.operation_inj, List.cons.injEq, and_true] at same
      obtain ⟨⟨signs, -⟩, lefts, rights⟩ := same
      rw [marks, List.forall_mem_append, List.forall_mem_cons] at spelled spelledToo
      rw [Operator.symbol_injective signs,
        eq_of_sketch left otherLeft spelled.1 spelledToo.1 lefts,
        eq_of_sketch right otherRight spelled.2.2 spelledToo.2.2 rights]
  | .call name arguments, .call otherName others =>
      simp only [sketch, Sketch.node.injEq, Face.operation_inj] at same
      obtain ⟨⟨names, -⟩, below⟩ := same
      rw [marks, List.forall_mem_cons] at spelled spelledToo
      rw [names, eq_of_sketchAll arguments others spelled.2 spelledToo.2 below]
  | .operator sign left right, .call name arguments =>
      simp only [sketch, Sketch.node.injEq, Face.operation_inj] at same
      rw [marks, List.forall_mem_cons] at spelledToo
      exact absurd same.1.1 (sign.symbol_ne_of_isIdentifier spelledToo.1)
  | .call name arguments, .operator sign left right =>
      simp only [sketch, Sketch.node.injEq, Face.operation_inj] at same
      rw [marks, List.forall_mem_cons] at spelled
      exact absurd same.1.1.symm (sign.symbol_ne_of_isIdentifier spelled.1)
  | .number _, .symbol _ | .number _, .operator .. | .number _, .call .. | .symbol _, .number _
  | .symbol _, .operator .. | .symbol _, .call .. | .operator .., .number _
  | .operator .., .symbol _ | .call .., .number _ | .call .., .symbol _ =>
      simp [sketch, Face.operation] at same

theorem eq_of_sketchAll (expressions others : List Expression)
    (spelled : ∀ mark ∈ marksAll expressions, mark.Spelled)
    (spelledToo : ∀ mark ∈ marksAll others, mark.Spelled)
    (same : sketchAll first expressions = sketchAll second others) : expressions = others := by
  match expressions, others with
  | [], [] => rfl
  | [], other :: rest => simp [sketchAll] at same
  | expression :: rest, [] => simp [sketchAll] at same
  | expression :: rest, other :: others =>
      obtain ⟨heads, tails⟩ := List.cons.inj same
      rw [marksAll, List.forall_mem_append] at spelled spelledToo
      rw [eq_of_sketch expression other spelled.1 spelledToo.1 heads,
        eq_of_sketchAll rest others spelled.2 spelledToo.2 tails]

end

end Expression

namespace Tree

open Branch

variable {first second precedence : Precedence} {tree other : Tree}

mutual

/-- The ranks that the sketch shows are all that depends on the table. -/
theorem Holds.of_sketch {parent start : Nat} {expression : Expression}
    (held : tree.Holds second parent start expression)
    (same : expression.sketch first = expression.sketch second) :
    tree.Holds first parent start expression := by
  cases expression with
  | number text => exact held
  | symbol text => exact held
  | operator sign left right =>
      simp only [Expression.sketch, Sketch.node.injEq, List.cons.injEq, and_true] at same
      obtain ⟨faces, lefts, rights⟩ := same
      obtain ⟨node, heldLeft, heldRight⟩ := held
      rw [← Node.operation_congr faces] at node
      exact ⟨node, heldLeft.of_sketch lefts, heldRight.of_sketch rights⟩
  | call name arguments =>
      simp only [Expression.sketch, Sketch.node.injEq] at same
      obtain ⟨faces, below⟩ := same
      obtain ⟨node, inside⟩ := held
      rw [← Node.operation_congr faces] at node
      exact ⟨node, inside.of_sketch below⟩

theorem HoldsAll.of_sketch {parent start : Nat} {expressions : List Expression}
    (held : tree.HoldsAll second parent start expressions)
    (same : Expression.sketchAll first expressions = Expression.sketchAll second expressions) :
    tree.HoldsAll first parent start expressions := by
  cases expressions with
  | nil => trivial
  | cons expression rest =>
      obtain ⟨heads, tails⟩ := List.cons.inj same
      exact ⟨held.1.of_sketch heads, held.2.of_sketch tails⟩

end

theorem lines_eq_of_below {id : NodeId} {node : Node} {face : Face} {branches : List Branch}
    {below : List Sketch} (found : tree.get? id = some node) (shown : node.face = face)
    (leaf : branches.isEmpty = below.isEmpty)
    (inside : linesAll tree branches = Sketch.linesAll below) :
    (Branch.node id branches).lines tree = (Sketch.node face below).lines := by
  subst shown
  rw [lines, found, Sketch.lines, ← leaf, ← inside]
  rfl

mutual

/-- A branch that holds an expression has the lines of its sketch. -/
theorem Holds.lines_eq {parent start : Nat} {expression : Expression} {branch : Branch}
    (held : tree.Holds precedence parent start expression) (grows : tree.Grows branch)
    (atTop : branch.top = expression.top start) :
    branch.lines tree = (expression.sketch precedence).lines := by
  obtain ⟨id, branches⟩ := branch
  obtain ⟨tops, growsAll⟩ := grows
  rw [show id = expression.top start from atTop] at tops ⊢
  cases expression with
  | number text | symbol text =>
      obtain rfl : branches = [] :=
        List.map_eq_nil_iff.mp (tops.symm.trans (children_of_get? held))
      exact lines_eq_of_below held rfl rfl rfl
  | operator sign left right =>
      obtain ⟨node, heldLeft, heldRight⟩ := held
      have pair := tops.symm.trans (children_of_get? node)
      obtain ⟨leftBranch, others, rfl, leftTop, rest⟩ := List.map_eq_cons_iff.mp pair
      obtain ⟨rightBranch, nothing, rfl, rightTop, none⟩ := List.map_eq_cons_iff.mp rest
      obtain rfl := List.map_eq_nil_iff.mp none
      apply lines_eq_of_below node rfl rfl
      rw [linesAll, linesAll, heldLeft.lines_eq growsAll.1 leftTop,
        heldRight.lines_eq growsAll.2.1 rightTop]
      rfl
  | call name arguments =>
      obtain ⟨node, inside⟩ := held
      have row : branches.map top = Expression.tops (start + 1) arguments :=
        tops.symm.trans (children_of_get? node)
      have leaf := congrArg List.isEmpty row
      rw [List.isEmpty_map] at leaf
      apply lines_eq_of_below node rfl _ (inside.lines_eq growsAll row)
      cases arguments <;> exact leaf

theorem HoldsAll.lines_eq {parent start : Nat} {expressions : List Expression}
    {branches : List Branch} (held : tree.HoldsAll precedence parent start expressions)
    (grows : tree.GrowsAll branches)
    (atTops : branches.map top = Expression.tops start expressions) :
    linesAll tree branches = Sketch.linesAll (Expression.sketchAll precedence expressions) := by
  match expressions, branches with
  | [], [] => rfl
  | expression :: rest, branch :: others =>
      obtain ⟨heads, tails⟩ := List.cons.inj atTops
      rw [linesAll, Expression.sketchAll, Sketch.linesAll, held.1.lines_eq grows.1 heads,
        held.2.lines_eq grows.2 tails]

end

/-- The outline of a complete tree shows its expression. -/
theorem Fills.outline_eq {expression : Expression} (linked : tree.Linked)
    (filled : tree.Fills precedence .whole expression) :
    tree.outline = (expression.sketch precedence).outline := by
  have rooted : root < tree.size := by
    rw [filled.size]
    exact Nat.add_pos_left Nat.one_pos _
  obtain ⟨branch, atRoot, grows⟩ := linked.exists_branch rooted
  rw [(linked.regular rooted).outline_eq rooted atRoot grows, Branch.outline]
  obtain ⟨id, branches⟩ := branch
  obtain rfl : id = root := atRoot
  obtain ⟨tops, growsAll⟩ := grows
  have single := tops.symm.trans (children_of_get? filled.around)
  obtain ⟨branch, nothing, rfl, atTop, none⟩ := List.map_eq_cons_iff.mp single
  obtain rfl := List.map_eq_nil_iff.mp none
  rw [lines_parent filled.around, linesAll, linesAll, List.append_nil,
    filled.inside.lines_eq growsAll.1 atTop]
  rfl

/-- Complete trees with the same outline are the same. -/
theorem Fills.eq_of_outline {expression read : Expression} (linked : tree.Linked)
    (linkedToo : other.Linked) (filled : tree.Fills first .whole expression)
    (filledToo : other.Fills second .whole read)
    (spelled : ∀ mark ∈ expression.marks, mark.Spelled)
    (spelledToo : ∀ mark ∈ read.marks, mark.Spelled) (same : tree.outline = other.outline) :
    tree = other := by
  have legible := expression.legible_sketch first spelled
  have legibleToo := read.legible_sketch second spelledToo
  rw [filled.outline_eq linked, filledToo.outline_eq linkedToo] at same
  have sketches := Sketch.outline_inj legible legibleToo same
  -- Both trees hold one expression, and where the tables differ the sketches would too.
  obtain rfl := expression.eq_of_sketch read spelled spelledToo sketches
  have held := filledToo.inside.of_sketch sketches
  exact filled.unique ⟨filledToo.around, held, filledToo.size⟩

/-- A node whose attributes are sorted can be read from its row. -/
theorem nodeJson_inj {id otherId : NodeId} {node row : Node}
    (sorted : node.attributes.byKey = node.attributes)
    (sortedToo : row.attributes.byKey = row.attributes)
    (same : nodeJson id node = nodeJson otherId row) : id = otherId ∧ node = row := by
  obtain ⟨kind, text, attributes, children, parent⟩ := node
  obtain ⟨otherKind, otherText, otherAttributes, otherChildren, otherParent⟩ := row
  simp only [nodeJson, attributesJson, Json.object.injEq, List.cons.injEq, Prod.mk.injEq, true_and,
    and_true, Json.array.injEq, Json.number.injEq, Json.string.injEq] at same sorted sortedToo
  rw [sorted, sortedToo] at same
  obtain ⟨entries, numbers, rfl, names, above, rfl⟩ := same
  obtain rfl : attributes = otherAttributes := by
    refine List.map_injective_iff.mpr ?_ entries
    rintro ⟨key, value⟩ ⟨otherKey, otherValue⟩ same
    simpa using same
  obtain rfl : children = otherChildren := by
    refine List.map_injective_iff.mpr ?_ numbers
    intro first second same
    simpa using same
  obtain rfl := NodeKind.name_injective names
  obtain rfl : parent = otherParent := by
    cases parent <;> cases otherParent <;> simp_all
  exact ⟨rfl, rfl⟩

/-- A listed node of a complete tree is in each complete tree with the same structured value. -/
theorem Fills.get?_of_toJson {expression read : Expression} {id : NodeId} {node : Node}
    (filled : tree.Fills first .whole expression) (filledToo : other.Fills second .whole read)
    (same : tree.toJson = other.toJson) (listed : id ∈ tree.preorder)
    (found : tree.get? id = some node) : other.get? id = some node := by
  have rows : tree.listing.map (fun entry => nodeJson entry.1 entry.2) =
      other.listing.map fun entry => nodeJson entry.1 entry.2 := by
    simpa only [toJson, Json.object.injEq, List.cons.injEq, Prod.mk.injEq, true_and, and_true,
      Json.array.injEq] using same
  have row : nodeJson id node ∈ tree.listing.map fun entry => nodeJson entry.1 entry.2 :=
    List.mem_map_of_mem (mem_listing_iff.mpr ⟨listed, found⟩)
  rw [rows, List.mem_map] at row
  obtain ⟨⟨otherId, otherNode⟩, member, equal⟩ := row
  obtain ⟨-, foundToo⟩ := mem_listing_iff.mp member
  obtain ⟨rfl, rfl⟩ := nodeJson_inj (filledToo.byKey_attributes foundToo)
    (filled.byKey_attributes found) equal
  exact foundToo

/-- A complete tree without detached nodes can be read from its structured value. -/
theorem Fills.eq_of_toJson {expression read : Expression}
    (filled : tree.Fills first .whole expression) (filledToo : other.Fills second .whole read)
    (reached : ∀ id < tree.size, id ∈ tree.preorder)
    (reachedToo : ∀ id < other.size, id ∈ other.preorder) (same : tree.toJson = other.toJson) :
    tree = other := by
  have nodes : tree.nodes = other.nodes := by
    apply Array.ext_getElem?
    intro id
    apply Option.ext
    intro node
    constructor
    · intro found
      have listed := reached id ((get?_eq_some_iff_lt tree id).mp ⟨node, found⟩)
      exact filled.get?_of_toJson filledToo same listed found
    · intro found
      have listed := reachedToo id ((get?_eq_some_iff_lt other id).mp ⟨node, found⟩)
      exact filledToo.get?_of_toJson filled same.symm listed found
  cases tree
  cases other
  exact congrArg Tree.mk nodes

end Tree

/-- A builder that refuses no token is fed with all of them. -/
theorem Builder.feedOn_of_feedAll {builder fed : Builder} {tokens : List Token}
    (success : builder.feedAll tokens = .ok fed) : builder.feedOn tokens = fed := by
  induction tokens generalizing builder with
  | nil => exact Except.ok.inj success
  | cons token rest inductionHypothesis =>
      rw [feedAll] at success
      rw [feedOn, List.foldl_cons, feedOrKeep]
      cases taken : builder.feed token with
      | error error => simp [taken] at success
      | ok next =>
          rw [taken] at success
          exact inductionHypothesis success

/-- A parsed tree is linked and complete, and all its nodes are listed. -/
theorem exists_fills_of_parse {precedence : Precedence} {formula : String} {tree : Tree}
    (parsed : parse precedence formula = .ok tree) :
    ∃ expression : Expression, tree.Linked ∧ tree.Fills precedence .whole expression ∧
      (∀ mark ∈ expression.marks, mark.Spelled) ∧ ∀ id < tree.size, id ∈ tree.preorder := by
  rw [parse] at parsed
  split at parsed
  case h_1 => simp at parsed
  case h_2 tokens scanned =>
    have built := ok_of_mapError parsed
    obtain ⟨expression, filled, marks⟩ := Tree.fills_of_ofTokens built
    obtain rfl : tree = ((Builder.start precedence).feedOn tokens).tree := by
      rw [Tree.ofTokens] at built
      split at built
      case h_1 builder fed =>
        rw [Builder.feedOn_of_feedAll fed]
        exact ((builder.finish_ok_iff tree).mp built).2.symm
      case h_2 => simp at built
    have linked := ((Builder.start_safe precedence).feedOn tokens).linked
    refine ⟨expression, linked, filled, marks ▸ spelled_of_tokenize scanned, ?_⟩
    intro id inside
    have rooted := Nat.lt_of_le_of_lt (Nat.zero_le id) inside
    obtain ⟨branch, atRoot, grows⟩ := linked.exists_branch rooted
    rw [(linked.regular rooted).preorder_eq atRoot grows, grows.mem_ids_iff, atRoot]
    exact Builder.descends_root precedence tokens inside

/-- Parsed trees have the same outline exactly when they have the same structured value, and then
they are the same tree. -/
theorem parse_legible (precedence otherPrecedence : Precedence) (formula otherFormula : String)
    (tree other : Tree) (parsed : parse precedence formula = .ok tree)
    (parsedToo : parse otherPrecedence otherFormula = .ok other) :
    (tree.outline = other.outline ↔ tree.toJson = other.toJson) ∧
      (tree.toJson = other.toJson ↔ tree = other) := by
  obtain ⟨expression, linked, filled, spelled, reached⟩ := exists_fills_of_parse parsed
  obtain ⟨read, linkedToo, filledToo, spelledToo, reachedToo⟩ :=
    exists_fills_of_parse parsedToo
  have listed : tree.toJson = other.toJson ↔ tree = other :=
    ⟨filled.eq_of_toJson filledToo reached reachedToo, congrArg Tree.toJson⟩
  refine ⟨?_, listed⟩
  rw [listed]
  constructor
  · exact filled.eq_of_outline linked linkedToo filledToo spelled spelledToo
  · exact congrArg Tree.outline

/-- A product of a number and a variable. -/
def productTree (rank : Nat) : Tree :=
  ⟨#[{ kind := .root, text := "", children := [2] },
    { kind := .number, text := "2", parent := some 2 },
    .operation "*" rank [1, 3] 0,
    { kind := .symbol, text := "z", parent := some 2 }]⟩

/-- Signs and brackets leave no trace in an outline, but the ranks from the table do. -/
theorem parse_legible_sample :
    parse .distinct "2 z" = .ok (productTree 2) ∧
      parse .distinct "(2*(z))" = .ok (productTree 2) ∧
      parse .conventional "2 z" = .ok (productTree 1) ∧
      (productTree 2).outline ≠ (productTree 1).outline ∧
      (productTree 2).toJson ≠ (productTree 1).toJson := by
  have adjacent : parse .distinct "2 z" = .ok (productTree 2) := by decide +kernel
  have bracketed : parse .distinct "(2*(z))" = .ok (productTree 2) := by decide +kernel
  have conventional : parse .conventional "2 z" = .ok (productTree 1) := by decide +kernel
  obtain ⟨outlines, values⟩ :=
    parse_legible .distinct .conventional "(2*(z))" "2 z" _ _ bracketed conventional
  have differ : (productTree 2).toJson ≠ (productTree 1).toJson := by
    intro same
    exact absurd (values.mp same) (by decide)
  exact ⟨adjacent, bracketed, conventional, fun same => differ (outlines.mp same), differ⟩

end GlslFormula
