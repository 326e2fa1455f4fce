import GlslFormula.Proofs.Output
import GlslFormula.Proofs.Progress
import GlslFormula.Proofs.Report

namespace GlslFormula

open Grammar Shader

namespace Shader

theorem mem_of_lookup {Value : Type} {table : List (String × Value)} {name : String}
    {value : Value} (known : table.lookup name = some value) : (name, value) ∈ table := by
  obtain ⟨before, after, rfl, -⟩ := List.lookup_eq_some_iff.mp known
  simp

/-- A value fixes its key in a table where no value stands twice. -/
theorem lookup_inj {Value : Type} {table : List (String × Value)}
    (distinct : (table.map Prod.snd).Nodup) {name other : String} {value : Value}
    (known : table.lookup name = some value) (knownToo : table.lookup other = some value) :
    name = other :=
  congrArg Prod.fst
    (List.inj_on_of_nodup_map distinct (mem_of_lookup known) (mem_of_lookup knownToo) rfl)

theorem mem_constants {name constant : String} (known : symbol? name = some constant) :
    constant ∈ constants := by
  have listed : constant ∈ symbols.map Prod.snd := List.mem_map_of_mem (mem_of_lookup known)
  exact listed

theorem mem_targets {name : String} {target : Target} (known : operation? name = some target) :
    target ∈ targets :=
  List.mem_map_of_mem (mem_of_lookup known)

/-- A node with this kind and text, and with these outputs below it, is translated to an output. -/
inductive Renders : NodeKind → String → List Output → Output → Prop where
  | literal (text : String) (isLiteral : IsLiteral text) :
      Renders .number text [] (.literal text isLiteral)
  | constant (name constant : String) (listed : constant ∈ constants)
      (known : symbol? name = some constant) : Renders .symbol name [] (.constant constant listed)
  | application (name : String) (target : Target) (listed : target ∈ targets)
      (arguments : Fin target.arity → Output) (below : List Output)
      (known : operation? name = some target) (same : List.ofFn arguments = below) :
      Renders .operation name below (.application target listed arguments)

variable {kind otherKind : NodeKind} {text otherText : String} {below others : List Output}
  {output other : Output}

theorem Renders.output_eq (renders : Renders kind text below output)
    (again : Renders kind text below other) : output = other := by
  cases renders with
  | literal =>
      cases again
      rfl
  | constant name constant listed known =>
      cases again with
      | constant _ otherConstant otherListed knownToo =>
          obtain rfl := Option.some.inj (known.symm.trans knownToo)
          rfl
  | application name target listed arguments below known same =>
      cases again with
      | application _ otherTarget otherListed otherArguments _ knownToo sameToo =>
          obtain rfl := Option.some.inj (known.symm.trans knownToo)
          obtain rfl := List.ofFn_injective (same.trans sameToo.symm)
          rfl

/-- The tables give no two names the same output. -/
theorem Renders.label_eq (renders : Renders kind text below output)
    (again : Renders otherKind otherText others output) :
    kind = otherKind ∧ text = otherText ∧ below = others := by
  cases renders with
  | literal =>
      cases again
      exact ⟨rfl, rfl, rfl⟩
  | constant name constant listed known =>
      cases again with
      | constant otherName _ _ knownToo =>
          exact ⟨rfl, lookup_inj (by decide) known knownToo, rfl⟩
  | application name target listed arguments below known same =>
      cases again with
      | application otherName _ _ _ _ knownToo sameToo =>
          exact ⟨rfl, lookup_inj (by decide +kernel) known knownToo, same.symm.trans sameToo⟩

end Shader

namespace Tree

variable {tree first second : Tree} {id : NodeId} {ids others : List NodeId}
  {outputs otherOutputs : List Output}

/-- Two rows of nodes have the same kinds and texts, and so have the nodes below them. -/
inductive Alike (first second : Tree) : List NodeId → List NodeId → Prop where
  | nil : Alike first second [] []
  | cons {id other : NodeId} {ids others children otherChildren : List NodeId} (kind : NodeKind)
      (text : String) (labels : first.Labels id kind text children)
      (otherLabels : second.Labels other kind text otherChildren)
      (below : Alike first second children otherChildren)
      (rest : Alike first second ids others) : Alike first second (id :: ids) (other :: others)

/-- The nodes of a row are translated to these outputs. -/
inductive Means (tree : Tree) : List NodeId → List Output → Prop where
  | nil : Means tree [] []
  | cons {id : NodeId} {ids children : List NodeId} {inside outputs : List Output}
      {output : Output} (kind : NodeKind) (text : String)
      (labels : tree.Labels id kind text children) (below : Means tree children inside)
      (renders : Renders kind text inside output) (rest : Means tree ids outputs) :
      Means tree (id :: ids) (output :: outputs)

theorem Labels.unique {kind otherKind : NodeKind} {text otherText : String}
    {children otherChildren : List NodeId} (labels : tree.Labels id kind text children)
    (other : tree.Labels id otherKind otherText otherChildren) :
    kind = otherKind ∧ text = otherText ∧ children = otherChildren := by
  obtain ⟨node, found, rfl, rfl, rfl⟩ := labels
  obtain ⟨same, foundToo, rfl, rfl, rfl⟩ := other
  obtain rfl := Option.some.inj (found.symm.trans foundToo)
  exact ⟨rfl, rfl, rfl⟩

/-- Nodes with the same outputs are alike. -/
theorem Means.alike (means : first.Means ids outputs) (meansToo : second.Means others outputs) :
    first.Alike second ids others := by
  induction means generalizing others with
  | nil =>
      cases meansToo
      exact .nil
  | cons kind text labels below renders rest belowHypothesis restHypothesis =>
      cases meansToo with
      | cons otherKind otherText otherLabels otherBelow again otherRest =>
          obtain ⟨rfl, rfl, rfl⟩ := renders.label_eq again
          exact .cons kind text labels otherLabels (belowHypothesis otherBelow)
            (restHypothesis otherRest)

/-- Nodes that are alike have the same outputs. -/
theorem Alike.outputs_eq (alike : first.Alike second ids others) (means : first.Means ids outputs)
    (meansToo : second.Means others otherOutputs) : outputs = otherOutputs := by
  induction alike generalizing outputs otherOutputs with
  | nil =>
      cases means
      cases meansToo
      rfl
  | cons kind text labels otherLabels below rest belowHypothesis restHypothesis =>
      cases means with
      | cons _ _ found inside renders tail =>
          cases meansToo with
          | cons _ _ otherFound otherInside again otherTail =>
              obtain ⟨rfl, rfl, rfl⟩ := labels.unique found
              obtain ⟨rfl, rfl, rfl⟩ := otherLabels.unique otherFound
              obtain rfl := belowHypothesis inside otherInside
              rw [renders.output_eq again, restHypothesis tail otherTail]

theorem Means.length_eq (means : tree.Means ids outputs) : ids.length = outputs.length := by
  induction means <;> simp [*]

/-- A node with a known name and enough children is translated. -/
theorem Means.operation {name : String} {target : Target} {children : List NodeId}
    (labels : tree.Labels id .operation name children) (known : operation? name = some target)
    (count : children.length = target.arity) (inside : tree.Means children outputs) :
    ∃ output : Output, tree.Means [id] [output] ∧
      output.text =
        target.name ++ "(" ++ ", ".intercalate (outputs.map Output.text) ++ ")" ∧
      output.literals = outputs.flatMap Output.literals := by
  obtain ⟨word, arity⟩ := target
  obtain rfl : outputs.length = arity := inside.length_eq.symm.trans count
  have renders := Renders.application name _ (mem_targets known) outputs.get outputs known
    (List.ofFn_get outputs)
  refine ⟨_, .cons .operation name labels inside renders .nil, ?_, ?_⟩
  · rw [Output.text, ← Function.comp_def, ← List.map_ofFn, List.ofFn_get]
  · rw [Output.literals, ← Function.comp_def, ← List.map_ofFn, List.ofFn_get, List.flatMap]

theorem Means.append {more : List NodeId} (means : tree.Means ids outputs)
    (meansToo : tree.Means more otherOutputs) :
    tree.Means (ids ++ more) (outputs ++ otherOutputs) := by
  induction means with
  | nil => exact meansToo
  | cons kind text labels below renders rest _ restHypothesis =>
      exact .cons kind text labels below renders restHypothesis

end Tree

/-- Only a number leaves a literal. -/
def Mark.literal? : Mark → Option String
  | .number text => some text
  | _ => none

/-- All numbers among the marks are literals. -/
def Mark.Literals (marks : List Mark) : Prop :=
  ∀ text, Mark.number text ∈ marks → IsLiteral text

theorem Shader.apply_eq_ok {name text : String} {count : Nat}
    {arguments : Except GenerateError String} (written : apply name count arguments = .ok text) :
    ∃ target inner, operation? name = some target ∧ count = target.arity ∧
      arguments = .ok inner ∧ text = target.name ++ "(" ++ inner ++ ")" := by
  rw [apply] at written
  split at written
  case h_1 => simp at written
  case h_2 target known =>
    split at written
    case isFalse => simp at written
    case isTrue same =>
      cases arguments with
      | error error => simp [Except.map] at written
      | ok inner => exact ⟨target, inner, known, same, rfl, (Except.ok.inj written).symm⟩

theorem Shader.join_eq_ok {first second : Except GenerateError String} {text : String}
    (written : join first second = .ok text) :
    ∃ left right, first = .ok left ∧ second = .ok right ∧ text = left ++ ", " ++ right := by
  cases first with
  | error error => simp [join, Except.bind] at written
  | ok left =>
      cases second with
      | error error => simp [join, Except.bind, Except.map] at written
      | ok right => exact ⟨left, right, rfl, rfl, (Except.ok.inj written).symm⟩

namespace Tree

variable {tree : Tree}

mutual

/-- The written text of an expression is that of an output. -/
theorem Shows.means {id : NodeId} {expression : Expression} {text : String}
    (shown : tree.Shows id expression) (written : expression.write = .ok text)
    (literals : Mark.Literals expression.marks) :
    ∃ output : Output, tree.Means [id] [output] ∧ output.text = text ∧
      output.literals = expression.marks.filterMap Mark.literal? := by
  cases expression with
  | number word =>
      obtain rfl := Except.ok.inj written
      have isLiteral := literals word (by simp [Expression.marks])
      exact ⟨_, .cons .number word shown .nil (.literal word isLiteral) .nil, rfl, rfl⟩
  | symbol word =>
      rw [Expression.write] at written
      split at written
      case h_1 constant known =>
        obtain rfl := Except.ok.inj written
        have renders := Renders.constant word constant (mem_constants known) known
        exact ⟨_, .cons .symbol word shown .nil renders .nil, rfl, rfl⟩
      case h_2 => simp at written
  | operator sign left right =>
      obtain ⟨first, second, labels, showsLeft, showsRight⟩ := shown
      obtain ⟨target, inner, known, count, joined, rfl⟩ := apply_eq_ok written
      obtain ⟨leftText, rightText, writtenLeft, writtenRight, rfl⟩ := join_eq_ok joined
      obtain ⟨leftOutput, leftMeans, rfl, leftLiterals⟩ := showsLeft.means writtenLeft
        fun text member => literals text (by simp [Expression.marks, member])
      obtain ⟨rightOutput, rightMeans, rfl, rightLiterals⟩ := showsRight.means writtenRight
        fun text member => literals text (by simp [Expression.marks, member])
      obtain ⟨output, means, spelled, copied⟩ :=
        Means.operation labels known count (leftMeans.append rightMeans)
      refine ⟨output, means, by simpa using spelled, ?_⟩
      rw [copied]
      simp [Expression.marks, List.filterMap_cons, Mark.literal?, leftLiterals, rightLiterals]
  | call name arguments =>
      obtain ⟨children, labels, showsAll⟩ := shown
      obtain ⟨target, inner, known, count, writtenAll, rfl⟩ := apply_eq_ok written
      obtain ⟨outputs, inside, rfl, innerLiterals⟩ := ShowsAll.means showsAll writtenAll
        fun text member => literals text (by simp [Expression.marks, member])
      have length : children.length = target.arity := showsAll.length_eq.trans count
      obtain ⟨output, means, spelled, copied⟩ := Means.operation labels known length inside
      refine ⟨output, means, spelled, ?_⟩
      rw [copied]
      simp [Expression.marks, List.filterMap_cons, Mark.literal?, innerLiterals]

theorem ShowsAll.means {ids : List NodeId} {expressions : List Expression} {text : String}
    (shown : tree.ShowsAll ids expressions) (written : Expression.writeAll expressions = .ok text)
    (literals : Mark.Literals (Expression.marksAll expressions)) :
    ∃ outputs : List Output, tree.Means ids outputs ∧
      ", ".intercalate (outputs.map Output.text) = text ∧
      outputs.flatMap Output.literals =
        (Expression.marksAll expressions).filterMap Mark.literal? := by
  match ids, expressions, shown with
  | [], [], _ =>
      obtain rfl := Except.ok.inj written
      exact ⟨[], .nil, rfl, rfl⟩
  | [id], [expression], ⟨first, _⟩ =>
      obtain ⟨output, means, spelled, copied⟩ := first.means written
        fun text member => literals text (by simp [Expression.marksAll, member])
      exact ⟨[output], means, by simpa using spelled, by simp [Expression.marksAll, copied]⟩
  | id :: next :: ids, expression :: other :: rest, ⟨first, remaining⟩ =>
      obtain ⟨left, right, writtenFirst, writtenRest, rfl⟩ := join_eq_ok written
      obtain ⟨output, means, rfl, copied⟩ := first.means writtenFirst
        fun text member => literals text (by simp [Expression.marksAll, member])
      obtain ⟨outputs, meansRest, rfl, copiedRest⟩ := ShowsAll.means remaining writtenRest
        fun text member => literals text (by
          rw [Expression.marksAll]
          exact List.mem_append_right _ member)
      obtain ⟨second, others, rfl⟩ :=
        List.exists_cons_of_length_eq_add_one meansRest.length_eq.symm
      refine ⟨output :: second :: others, means.append meansRest, ?_, ?_⟩
      · rw [List.map_cons, List.map_cons, String.intercalate_cons_cons]
      · rw [Expression.marksAll, List.filterMap_append, ← copied, ← copiedRest,
          List.flatMap_cons]

end

end Tree

/-- The tree of a token list holds one expression, and the tokens leave its marks. -/
theorem Tree.fills_of_ofTokens {precedence : Precedence} {tokens : List Token} {tree : Tree}
    (built : Tree.ofTokens precedence tokens = .ok tree) :
    ∃ expression : Expression, tree.Fills precedence .whole expression ∧
      expression.marks = tokens.filterMap Token.mark? := by
  rw [Tree.ofTokens] at built
  split at built
  case h_2 => simp at built
  case h_1 builder fed =>
    obtain ⟨done, rfl⟩ := (builder.finish_ok_iff tree).mp built
    obtain ⟨phase, scopes⟩ : builder.phase = .afterValue ∧ builder.scopes.map Scope.kind = [] := by
      simpa [Builder.control, Control.done] using done
    have stands := (Builder.start_stands precedence).feedAll fed
    rw [List.nil_append] at stands
    generalize tokens.filterMap Token.mark? = marks at stands
    cases stands with
    | expects context waits => simp [waits.phased] at phase
    | named name outer waits => simp [waits.phased] at phase
    | behind context value reached =>
        rw [reached.nested] at scopes
        obtain ⟨inner, ends⟩ := Context.collapse_of_whole value scopes
        have filled := reached.built.collapse
        have same := context.marks_collapse value
        rw [ends] at filled same
        exact ⟨inner, filled, same⟩

theorem Token.literal?_mark? (token : Token) :
    token.mark?.bind Mark.literal? = if token.kind = .number then some token.text else none := by
  obtain ⟨kind, text, span⟩ := token
  cases kind with
  | operator =>
      cases sign : Operator.ofSymbol? text <;>
        simp [Token.mark?, Token.lexeme, Lexeme.terminal?, Terminal.mark?, Mark.literal?, sign]
  | _ => rfl

/-- The literals that the tokens leave are their numbers. -/
theorem filterMap_literal?_mark? (tokens : List Token) :
    (tokens.filterMap Token.mark?).filterMap Mark.literal? =
      (tokens.filter fun token => token.kind = .number).map Token.text := by
  rw [List.filterMap_filterMap]
  induction tokens with
  | nil => rfl
  | cons token rest inductionHypothesis =>
      rw [List.filterMap_cons, token.literal?_mark?, inductionHypothesis]
      by_cases isNumber : token.kind = .number <;> simp [isNumber]

/-- The numbers of an accepted formula are literals. -/
theorem literals_of_tokenize {formula : String} {tokens : List Token}
    (scanned : tokenize formula = .ok tokens) :
    Mark.Literals (tokens.filterMap Token.mark?) := by
  intro text member
  obtain ⟨token, inside, left⟩ := List.mem_filterMap.mp member
  have isNumber := token.literal?_mark?
  rw [left, Option.bind_some, Mark.literal?] at isNumber
  split at isNumber
  case isFalse => simp at isNumber
  case isTrue number =>
    obtain rfl := Option.some.inj isNumber
    have wellFormed := wellFormed_of_tokenize scanned token inside
    rw [Lexeme.WellFormed, Token.lexeme, number] at wellFormed
    exact wellFormed

theorem ok_of_mapError {Error Other Value : Type} {result : Except Error Value}
    {wrap : Error → Other} {value : Value} (mapped : result.mapError wrap = .ok value) :
    result = .ok value := by
  cases result with
  | error error => simp [Except.mapError] at mapped
  | ok found => rw [Except.ok.inj mapped]

/-- A formula compiles when all three stages succeed. -/
theorem stages_of_compile {precedence : Precedence} {formula text : String}
    (compiled : compile precedence formula = .ok text) :
    ∃ tokens tree, tokenize formula = .ok tokens ∧ Tree.ofTokens precedence tokens = .ok tree ∧
      parse precedence formula = .ok tree ∧ generate tree = .ok text := by
  rw [compile] at compiled
  split at compiled
  case h_1 => simp at compiled
  case h_2 tree parsed =>
    have built := parsed
    rw [parse] at built
    split at built
    case h_1 => simp at built
    case h_2 tokens scanned =>
      exact ⟨tokens, tree, scanned, ok_of_mapError built, parsed, ok_of_mapError compiled⟩

/-- The text of a compiled formula is that of an output to which its tree is translated. -/
theorem exists_output {precedence : Precedence} {formula text : String}
    (compiled : compile precedence formula = .ok text) :
    ∃ (tokens : List Token) (tree : Tree) (top : NodeId) (output : Output),
      tokenize formula = .ok tokens ∧ parse precedence formula = .ok tree ∧
        tree.Labels Tree.root .root "" [top] ∧ tree.Means [top] [output] ∧ output.text = text ∧
        output.literals = (tokens.filter fun token => token.kind = .number).map Token.text := by
  obtain ⟨tokens, tree, scanned, built, parsed, generated⟩ := stages_of_compile compiled
  obtain ⟨expression, filled, marks⟩ := Tree.fills_of_ofTokens built
  have atRoot : tree.Labels Tree.root .root "" [expression.top 1] :=
    ⟨_, filled.around, rfl, rfl, rfl⟩
  have shown := filled.inside.shows
  have large : expression.size ≤ tree.size := by
    rw [filled.size]
    exact Nat.le_add_left _ _
  rw [generate_eq_write atRoot shown large] at generated
  have literals : Mark.Literals expression.marks := by
    rw [marks]
    exact literals_of_tokenize scanned
  obtain ⟨output, means, spelled, copied⟩ := shown.means generated literals
  rw [marks, filterMap_literal?_mark?] at copied
  exact ⟨tokens, tree, _, output, scanned, parsed, atRoot, means, spelled, copied⟩

/-- Two trees with one part each are alike when the parts are. -/
theorem Tree.alike_root_iff {first second : Tree} {top other : NodeId}
    (atRoot : first.Labels root .root "" [top]) (atOther : second.Labels root .root "" [other]) :
    first.Alike second [root] [root] ↔ first.Alike second [top] [other] := by
  constructor
  · intro alike
    cases alike with
    | cons kind text labels otherLabels below rest =>
        obtain ⟨-, -, rfl⟩ := atRoot.unique labels
        obtain ⟨-, -, rfl⟩ := atOther.unique otherLabels
        exact below
  · intro below
    exact .cons .root "" atRoot atOther below .nil

/-- Two formulas that compile have the same text exactly when their trees are alike. Each text is
that of an output, and the literals in it are the numbers of the formula. -/
theorem compile_lossless :
    (∀ (precedence otherPrecedence : Precedence) (formula other text otherText : String),
      compile precedence formula = .ok text → compile otherPrecedence other = .ok otherText →
        ∃ tree otherTree, parse precedence formula = .ok tree ∧
          parse otherPrecedence other = .ok otherTree ∧
          (text = otherText ↔ tree.Alike otherTree [Tree.root] [Tree.root])) ∧
    ∀ (precedence : Precedence) (formula text : String), compile precedence formula = .ok text →
      ∃ tokens, tokenize formula = .ok tokens ∧ (∃ output : Output, output.text = text) ∧
        ∀ output : Output, output.text = text →
          output.literals = (tokens.filter fun token => token.kind = .number).map Token.text := by
  refine ⟨?_, ?_⟩
  · intro precedence otherPrecedence formula other text otherText compiled otherCompiled
    obtain ⟨-, tree, top, output, -, parsed, atRoot, means, rfl, -⟩ := exists_output compiled
    obtain ⟨-, otherTree, otherTop, otherOutput, -, otherParsed, atOther, otherMeans, rfl, -⟩ :=
      exists_output otherCompiled
    refine ⟨tree, otherTree, parsed, otherParsed, ?_⟩
    rw [Tree.alike_root_iff atRoot atOther]
    constructor
    · intro same
      obtain rfl := Output.text_injective same
      exact means.alike otherMeans
    · intro alike
      obtain rfl := List.head_eq_of_cons_eq (alike.outputs_eq means otherMeans)
      rfl
  · intro precedence formula text compiled
    obtain ⟨tokens, -, -, output, scanned, -, -, -, rfl, copied⟩ := exists_output compiled
    refine ⟨tokens, scanned, ⟨output, rfl⟩, ?_⟩
    intro other same
    obtain rfl := Output.text_injective same
    exact copied

/-- The two tables group the sum in this formula in different ways. -/
def looseFormula : String := "log(6 + -2.5 - z, e)"

def groupedFormula : String := "log(6 + (-2.5 - z), e)"

def groupedText : String := "cmplxLog(cmplxAdd(6, cmplxSub(-2.5, z)), CMPLX_E)"

theorem compile_lossless_sample :
    (∃ tree grouped, parse .distinct looseFormula = .ok tree ∧
      parse .conventional groupedFormula = .ok grouped ∧
      tree.Alike grouped [Tree.root] [Tree.root]) ∧
    (∃ tree other, parse .distinct looseFormula = .ok tree ∧
      parse .conventional looseFormula = .ok other ∧
      ¬ tree.Alike other [Tree.root] [Tree.root]) ∧
    ∃ output : Output, output.text = groupedText ∧ output.literals = ["6", "-2.5"] := by
  have compiled : compile .distinct looseFormula = .ok groupedText := by decide +kernel
  have same : compile .conventional groupedFormula = .ok groupedText := by decide +kernel
  have different : compile .conventional looseFormula =
      .ok "cmplxLog(cmplxSub(cmplxAdd(6, -2.5), z), CMPLX_E)" := by decide +kernel
  obtain ⟨equal, grammatical⟩ := compile_lossless
  refine ⟨?_, ?_, ?_⟩
  · obtain ⟨tree, grouped, parsed, parsedToo, agree⟩ := equal _ _ _ _ _ _ compiled same
    exact ⟨tree, grouped, parsed, parsedToo, agree.mp rfl⟩
  · obtain ⟨tree, other, parsed, parsedToo, agree⟩ := equal _ _ _ _ _ _ compiled different
    exact ⟨tree, other, parsed, parsedToo, fun alike => by simpa [groupedText] using agree.mpr alike⟩
  · obtain ⟨tokens, scanned, ⟨output, spelled⟩, copied⟩ := grammatical _ _ _ compiled
    have numbers : (tokenize looseFormula).map (fun tokens =>
        (tokens.filter fun token => token.kind = .number).map Token.text) =
          .ok ["6", "-2.5"] := by decide +kernel
    rw [scanned] at numbers
    exact ⟨output, spelled, (copied output spelled).trans (Except.ok.inj numbers)⟩

end GlslFormula
