import GlslFormula.Proofs.Division
import GlslFormula.Proofs.Origin
import GlslFormula.Proofs.Recovery

namespace GlslFormula

open Grammar Builder

namespace Builder

theorem Reads.append {first second : List Token} {sooner later : List Terminal}
    (front : Reads first sooner) (back : Reads second later) :
    Reads (first ++ second) (sooner ++ later) := by
  rw [Reads, List.map_append, List.map_append, front, back]

theorem Reads.cons {token : Token} {tokens : List Token} {terminal : Terminal}
    {terminals : List Terminal} (front : token.lexeme.terminal? = some terminal)
    (back : Reads tokens terminals) : Reads (token :: tokens) (terminal :: terminals) := by
  rw [Reads, List.map_cons, List.map_cons, front, back]

theorem reads_nil : Reads [] [] := rfl

end Builder

namespace Token

/-- With parentheses around `part` the tokens stand for these terminals. -/
def Bracketed (before part after : List Token) (terminals : List Terminal) : Prop :=
  ∀ opening closing : Token, opening.kind = .parenthesisOpen → closing.kind = .parenthesisClose →
    Reads (before ++ opening :: (part ++ closing :: after)) terminals

variable {before part after first last : List Token} {terminals sooner later : List Terminal}

theorem bracketed_whole (known : Reads part terminals) :
    Bracketed [] part [] (.groupOpen :: (terminals ++ [.groupClose])) := by
  intro opening closing opens closes
  have isOpen : opening.lexeme.terminal? = some .groupOpen := by
    simp [lexeme, Lexeme.terminal?, opens]
  have isClose : closing.lexeme.terminal? = some .groupClose := by
    simp [lexeme, Lexeme.terminal?, closes]
  exact .cons isOpen (known.append (.cons isClose reads_nil))

/-- Other tokens may stand around the list. -/
theorem Bracketed.around (bracketed : Bracketed before part after terminals)
    (front : Reads first sooner) (back : Reads last later) :
    Bracketed (first ++ before) part (after ++ last) (sooner ++ (terminals ++ later)) := by
  intro opening closing opens closes
  have whole := front.append ((bracketed opening closing opens closes).append back)
  simpa using whole

end Token

open Token

namespace Grammar

/-- Parentheses around `part` give another chain with the same expression. -/
def Chain.Redundant (precedence : Precedence) (chain : Chain) (before part after : List Token) :
    Prop :=
  ∃ wrapped : Chain, wrapped.expression precedence = chain.expression precedence ∧
    wrapped.operators ⊆ chain.operators ∧ Bracketed before part after wrapped.terminals

def Arguments.Redundant (precedence : Precedence) (arguments : Arguments)
    (before part after : List Token) : Prop :=
  ∃ wrapped : Arguments, wrapped.expressions precedence = arguments.expressions precedence ∧
    Bracketed before part after wrapped.terminals

variable {precedence : Precedence} {before part after first last tokens : List Token}

namespace Chain

theorem redundant_whole {chain : Chain} (known : Reads tokens chain.terminals) :
    chain.Redundant precedence [] tokens [] :=
  ⟨.single (.group chain), expression_single precedence (.group chain), by simp [operators],
    bracketed_whole known⟩

theorem Redundant.group {inner : Chain} {opening closing : Token}
    (redundant : inner.Redundant precedence before part after)
    (opens : opening.lexeme.terminal? = some .groupOpen)
    (closes : closing.lexeme.terminal? = some .groupClose) :
    (single (.group inner)).Redundant precedence (opening :: before) part (after ++ [closing]) := by
  obtain ⟨wrapped, same, -, bracketed⟩ := redundant
  refine ⟨.single (.group wrapped), ?_, by simp [operators], ?_⟩
  · rw [expression_single, expression_single]
    exact same
  · exact bracketed.around (.cons opens reads_nil) (.cons closes reads_nil)

/-- The operators outside of the new parentheses are some of those before, so the same one is on
top. -/
theorem Redundant.left {left right : Chain} {joint : Joint}
    (redundant : left.Redundant precedence before part after)
    (tops : precedence.Tops left.operators joint.operator right.operators)
    (back : Reads last (.joint joint :: right.terminals)) :
    (left.append joint right).Redundant precedence before part (after ++ last) := by
  obtain ⟨wrapped, same, fewer, bracketed⟩ := redundant
  have stillTops : precedence.Tops wrapped.operators joint.operator right.operators :=
    ⟨fun other member => tops.1 other (fewer member), tops.2⟩
  refine ⟨wrapped.append joint right, ?_, ?_, ?_⟩
  · rw [expression_append stillTops, expression_append tops, same]
  · rw [operators_append, operators_append]
    exact List.append_subset_of_subset_of_subset
      (List.subset_append_of_subset_left _ fewer) (List.subset_append_right _ _)
  · rw [terminals_append]
    exact bracketed.around reads_nil back

theorem Redundant.right {left right : Chain} {joint : Joint}
    (redundant : right.Redundant precedence before part after)
    (tops : precedence.Tops left.operators joint.operator right.operators)
    (front : Reads first (left.terminals ++ [.joint joint])) :
    (left.append joint right).Redundant precedence (first ++ before) part after := by
  obtain ⟨wrapped, same, fewer, bracketed⟩ := redundant
  have stillTops : precedence.Tops left.operators joint.operator wrapped.operators :=
    ⟨tops.1, fun other member => tops.2 other (fewer member)⟩
  refine ⟨left.append joint wrapped, ?_, ?_, ?_⟩
  · rw [expression_append stillTops, expression_append tops, same]
  · rw [operators_append, operators_append]
    exact List.append_subset_of_subset_of_subset (List.subset_append_left _ _)
      (List.subset_append_of_subset_right _ (List.cons_subset_cons _ fewer))
  · have whole := bracketed.around front reads_nil
    simpa using whole

end Chain

namespace Arguments

theorem redundant_last {argument : Chain}
    (redundant : argument.Redundant precedence before part after) :
    (Arguments.last argument).Redundant precedence before part after := by
  obtain ⟨wrapped, same, -, bracketed⟩ := redundant
  exact ⟨.last wrapped, congrArg (fun expression => [expression]) same, bracketed⟩

theorem redundant_first {argument : Chain} {arguments : Arguments}
    (redundant : argument.Redundant precedence before part after)
    (back : Reads tokens (.comma :: arguments.terminals)) :
    (more argument arguments).Redundant precedence before part (after ++ tokens) := by
  obtain ⟨wrapped, same, -, bracketed⟩ := redundant
  refine ⟨.more wrapped arguments, ?_, ?_⟩
  · rw [expressions, expressions]
    exact congrArg (fun expression => expression :: _) same
  · exact bracketed.around reads_nil back

theorem redundant_rest {argument : Chain} {arguments : Arguments}
    (redundant : arguments.Redundant precedence before part after)
    (front : Reads tokens (argument.terminals ++ [.comma])) :
    (more argument arguments).Redundant precedence (tokens ++ before) part after := by
  obtain ⟨wrapped, same, bracketed⟩ := redundant
  refine ⟨.more argument wrapped, ?_, ?_⟩
  · rw [expressions, expressions, same]
  · have whole := bracketed.around front reads_nil
    simpa [terminals] using whole

theorem Redundant.call {name : String} {arguments : Arguments} {named opening closing : Token}
    (redundant : arguments.Redundant precedence before part after)
    (isName : named.lexeme.terminal? = some (.name name))
    (opens : opening.lexeme.terminal? = some .argumentsOpen)
    (closes : closing.lexeme.terminal? = some .argumentsClose) :
    (Chain.single (.call name arguments)).Redundant precedence (named :: opening :: before) part
      (after ++ [closing]) := by
  obtain ⟨wrapped, same, bracketed⟩ := redundant
  refine ⟨.single (.call name wrapped), ?_, by simp [Chain.operators], ?_⟩
  · rw [Chain.expression_single, Chain.expression_single, Value.expression, Value.expression, same]
  · exact bracketed.around (.cons isName (.cons opens reads_nil)) (.cons closes reads_nil)

end Arguments

end Grammar

theorem Token.Encloses.grow {opens closes : List Token} {opening closing : Token}
    (enclosed : Encloses opens closes) (isOpen : opening.kind = .parenthesisOpen)
    (isClose : closing.kind = .parenthesisClose) :
    Encloses (opening :: opens) (closes ++ [closing]) where
  length := by simpa using enclosed.length
  opening := by simpa [isOpen] using enclosed.opening
  closing := by simpa [isClose, or_imp, forall_and] using enclosed.closing

namespace Tree

/-- The node was built from some of the tokens, and these stand where they fit. -/
def Places (precedence : Precedence) (tree : Tree) (before tokens : List Token) (id : NodeId)
    (fits : List Token → List Token → List Token → Prop) : Prop :=
  ∃ sooner part later, tokens = sooner ++ part ++ later ∧
    tree.BuiltFrom precedence id (before ++ sooner) part ∧ fits sooner part later

/-- Each node of the expression was built from tokens that may get redundant parentheses. The
topmost one was built from all tokens but the parentheses around them. -/
structure Traces (precedence : Precedence) (tree : Tree) (chain : Chain)
    (before tokens : List Token) : Prop where
  top : tree.Places precedence before tokens ((chain.expression precedence).top (nextNode before))
    fun opens _ closes => Encloses opens closes
  inside : ∀ id : Nat, nextNode before ≤ id →
    id < nextNode before + (chain.expression precedence).size →
    tree.Places precedence before tokens id (chain.Redundant precedence)

/-- All that is read of a chain and held of its expression is traced. -/
def Traceable (precedence : Precedence) (tree : Tree) (chain : Chain) : Prop :=
  ∀ (before tokens : List Token) (parent : NodeId), Reads tokens chain.terminals →
    Viable (before ++ tokens) →
    tree.Holds precedence parent (nextNode before) (chain.expression precedence) →
    tree.Traces precedence chain before tokens

variable {precedence : Precedence} {tree : Tree} {before tokens : List Token}

/-- Other tokens may stand around the list. -/
theorem Places.widen {inner all : List Token} {id : NodeId}
    {fits wide : List Token → List Token → List Token → Prop}
    (placed : tree.Places precedence inner tokens id fits) (front back : List Token)
    (start : inner = before ++ front) (whole : all = front ++ tokens ++ back)
    (carry : ∀ sooner part later, fits sooner part later →
      wide (front ++ sooner) part (later ++ back)) :
    tree.Places precedence before all id wide := by
  obtain ⟨sooner, part, later, rfl, built, fitting⟩ := placed
  subst start whole
  rw [List.append_assoc] at built
  exact ⟨front ++ sooner, part, later ++ back, by simp, built, carry _ _ _ fitting⟩

/-- Outside of a group the topmost node was built from all tokens. -/
theorem traces_of_whole {chain : Chain} (known : Reads tokens chain.terminals)
    (built : tree.BuiltFrom precedence ((chain.expression precedence).top (nextNode before))
      before tokens)
    (others : ∀ id : Nat, nextNode before ≤ id →
      id < nextNode before + (chain.expression precedence).size →
      id ≠ (chain.expression precedence).top (nextNode before) →
      tree.Places precedence before tokens id (chain.Redundant precedence)) :
    tree.Traces precedence chain before tokens := by
  constructor
  · exact ⟨[], tokens, [], by simp, by simpa using built, ⟨rfl, by simp, by simp⟩⟩
  · intro id lower upper
    by_cases atTop : id = (chain.expression precedence).top (nextNode before)
    · exact ⟨[], tokens, [], by simp, by simpa [atTop] using built, Chain.redundant_whole known⟩
    · exact others id lower upper atTop

/-- A number or a symbol has one node, and its token makes it. -/
theorem traceable_leaf {value : Value} {terminal : Terminal} (alone : value.terminals = [terminal])
    (kind : terminal.token.kind = .number ∨ terminal.token.kind = .symbol)
    (one : (value.expression precedence).size = 1) :
    tree.Traceable precedence (.single value) := by
  intro before tokens parent known viable held
  have single : Reads tokens [terminal] := alone ▸ known
  obtain ⟨token, rfl, first⟩ := single.single
  have lowest := (value.expression precedence).le_top (nextNode before)
  have highest := (value.expression precedence).top_lt (nextNode before)
  have top : (value.expression precedence).top (nextNode before) = nextNode before := by omega
  apply traces_of_whole known
  · rw [Chain.expression_single, top]
    exact .value token (by rwa [kind_eq first]) (makes_nextNode precedence viable.of_append)
  · intro id lower upper different
    rw [Chain.expression_single] at upper different
    omega

theorem traceable_group {inner : Chain} (traceable : tree.Traceable precedence inner) :
    tree.Traceable precedence (.single (.group inner)) := by
  intro before tokens parent known viable held
  obtain ⟨opening, rest, rfl, opens, others⟩ := Reads.uncons known
  obtain ⟨inside, last, rfl, readInside, readClosing⟩ := Reads.split others
  obtain ⟨closing, rfl, closes⟩ := Reads.single readClosing
  have same : (Chain.single (.group inner)).expression precedence = inner.expression precedence :=
    Chain.expression_single precedence (.group inner)
  have sameNext : nextNode (before ++ [opening]) = nextNode before :=
    nextNode_append (.cons opens reads_nil)
  have whole : Viable (before ++ [opening] ++ inside ++ [closing]) := by simpa using viable
  rw [same, ← sameNext] at held
  have traced := traceable (before ++ [opening]) inside parent readInside whole.of_append held
  obtain ⟨top, eachInside⟩ := traced
  rw [sameNext] at top eachInside
  constructor
  · rw [same]
    apply top.widen [opening] [closing] rfl rfl
    intro innerOpens core innerCloses enclosed
    exact enclosed.grow (kind_eq opens) (kind_eq closes)
  · intro id lower upper
    rw [same] at upper
    apply (eachInside id lower upper).widen [opening] [closing] rfl rfl
    intro sooner part later redundant
    exact redundant.group opens closes

/-- The arguments stand between the brackets of the call. -/
theorem places_arguments {before tokens : List Token} {arguments : Arguments} {parent : NodeId}
    {id : Nat} (each : ∀ argument ∈ arguments.chains, tree.Traceable precedence argument)
    (known : Reads tokens arguments.terminals) (viable : Viable (before ++ tokens))
    (held : tree.HoldsAll precedence parent (nextNode before) (arguments.expressions precedence))
    (lower : nextNode before ≤ id)
    (upper : id < nextNode before + Expression.sizeAll (arguments.expressions precedence)) :
    tree.Places precedence before tokens id (arguments.Redundant precedence) := by
  match arguments with
  | .last argument =>
      have traced := each argument (by simp [Arguments.chains]) before tokens parent known viable
        held.1
      obtain ⟨sooner, part, later, split, built, redundant⟩ := traced.inside id lower upper
      exact ⟨sooner, part, later, split, built, Arguments.redundant_last redundant⟩
  | .more argument rest =>
      obtain ⟨front, others, rfl, readFirst, readOthers⟩ := Reads.split known
      obtain ⟨comma, back, rfl, isComma, readRest⟩ := Reads.uncons readOthers
      obtain ⟨heldFirst, heldRest⟩ := held
      rw [Arguments.expressions, Expression.sizeAll] at upper
      change tree.HoldsAll precedence parent
        (nextNode before + (argument.expression precedence).size) _ at heldRest
      change id < nextNode before + ((argument.expression precedence).size + _) at upper
      rcases Nat.lt_or_ge id (nextNode before + (argument.expression precedence).size) with
        inFirst | behind
      · have whole : Viable (before ++ front ++ comma :: back) := by simpa using viable
        have traced := each argument (by simp [Arguments.chains]) before front parent readFirst
          whole.of_append heldFirst
        apply (traced.inside id lower inFirst).widen [] (comma :: back) (by simp) rfl
        intro sooner part later redundant
        exact Arguments.redundant_first redundant readOthers
      · have readFront := readFirst.append (.cons isComma reads_nil)
        have next : nextNode (before ++ (front ++ [comma])) =
            nextNode before + (argument.expression precedence).size := by
          rw [nextNode_append readFront, Chain.size_expression, List.countP_append]
          rfl
        have whole : Viable (before ++ (front ++ [comma]) ++ back) := by simpa using viable
        rw [← next] at heldRest behind
        have eachOther : ∀ argument ∈ rest.chains, tree.Traceable precedence argument :=
          fun other member => each other (by simp [Arguments.chains, member])
        have placed := places_arguments eachOther readRest whole heldRest behind
          (by rw [next]; omega)
        apply placed.widen (front ++ [comma]) [] rfl (by simp)
        intro sooner part later redundant
        rw [List.append_nil]
        exact Arguments.redundant_rest redundant readFront

theorem traceable_call {name : String} {arguments : Arguments}
    (each : ∀ argument ∈ arguments.chains, tree.Traceable precedence argument) :
    tree.Traceable precedence (.single (.call name arguments)) := by
  intro before tokens parent known viable held
  obtain ⟨named, tail, rfl, isName, rest⟩ := Reads.uncons known
  obtain ⟨opening, rest, rfl, opens, others⟩ := Reads.uncons rest
  obtain ⟨inside, last, rfl, readInside, readClosing⟩ := Reads.split others
  obtain ⟨closing, rfl, closes⟩ := Reads.single readClosing
  have next : nextNode (before ++ [named, opening]) = nextNode before + 1 :=
    nextNode_append (.cons isName (.cons opens reads_nil))
  have whole : Viable (before ++ [named, opening] ++ inside ++ [closing]) := by simpa using viable
  rw [Chain.expression_single] at held
  obtain ⟨-, heldArguments⟩ := held
  rw [← next] at heldArguments
  apply traces_of_whole known
  · rw [Chain.expression_single]
    exact .call named opening inside closing (kind_eq isName) (kind_eq opens)
      (arguments.balanced readInside) (kind_eq closes)
      (makes_nextNode precedence viable.of_append)
  · intro id lower upper different
    rw [Chain.expression_single, Value.expression, Expression.size] at upper
    rw [Chain.expression_single, Value.expression, Expression.top] at different
    have behind : nextNode (before ++ [named, opening]) ≤ id := by omega
    have placed := places_arguments each readInside whole.of_append heldArguments behind (by omega)
    apply placed.widen [named, opening] [closing] rfl rfl
    intro sooner part later redundant
    exact redundant.call isName opens closes

/-- The operator on top was built from its own token and all tokens of its operands. -/
theorem traceable_append {left right : Chain} {joint : Joint}
    (tops : precedence.Tops left.operators joint.operator right.operators)
    (leftTraceable : tree.Traceable precedence left)
    (rightTraceable : tree.Traceable precedence right) :
    tree.Traceable precedence (left.append joint right) := by
  intro before tokens parent known viable held
  have expression := Chain.expression_append tops
  have parts := known
  rw [Chain.terminals_append] at parts
  obtain ⟨front, others, rfl, readLeft, readOthers⟩ := Reads.split parts
  obtain ⟨sign, back, rfl, isSign, readRight⟩ := Reads.uncons readOthers
  have atSign : nextNode (before ++ front) =
      nextNode before + (left.expression precedence).size := by
    rw [nextNode_append readLeft, Chain.size_expression]
  have behind : nextNode (before ++ front ++ [sign]) =
      nextNode before + (left.expression precedence).size + 1 := by
    rw [nextNode_append (.cons isSign reads_nil), atSign]
    rfl
  have start : Viable (before ++ front ++ sign :: back) := by simpa using viable
  have whole : Viable (before ++ front ++ [sign] ++ back) := by simpa using viable
  rw [expression] at held
  obtain ⟨node, heldLeft, heldRight⟩ := held
  rw [← behind] at heldRight
  have leftTraced := leftTraceable before front _ readLeft start.of_append heldLeft
  have rightTraced := rightTraceable _ back _ readRight whole heldRight
  apply traces_of_whole known
  · obtain ⟨leftOpens, leftCore, leftCloses, rfl, leftBuilt, leftEnclosed⟩ := leftTraced.top
    obtain ⟨rightOpens, rightCore, rightCloses, rfl, rightBuilt, rightEnclosed⟩ := rightTraced.top
    have kind : sign.kind = .operator ∨ sign.kind = .implicitMultiply := by
      rw [kind_eq isSign]
      cases joint
      · exact .inl rfl
      · exact .inr rfl
    rw [expression, Expression.top, ← atSign]
    refine .operator sign kind (makes_nextNode precedence start.of_append) ?_ leftBuilt
      leftEnclosed rightBuilt rightEnclosed
    rw [Tree.children, atSign, node, behind]
    rfl
  · intro id lower upper different
    rw [expression, Expression.size] at upper
    rw [expression, Expression.top] at different
    rcases Nat.lt_or_gt_of_ne different with inLeft | inRight
    · apply (leftTraced.inside id lower inLeft).widen [] (sign :: back) (by simp) rfl
      intro sooner part later redundant
      exact redundant.left tops readOthers
    · have placed := rightTraced.inside id (by rw [behind]; omega) (by rw [behind]; omega)
      apply placed.widen (front ++ [sign]) [] (by simp) (by simp)
      intro sooner part later redundant
      rw [List.append_nil]
      exact redundant.right tops (readLeft.append (.cons isSign reads_nil))

theorem traceable (precedence : Precedence) (tree : Tree) (chain : Chain) :
    tree.Traceable precedence chain := by
  induction chain using Chain.topInduction precedence with
  | number text => exact traceable_leaf rfl (.inl rfl) rfl
  | symbol text => exact traceable_leaf rfl (.inr rfl) rfl
  | group inner traced => exact traceable_group traced
  | call name arguments each => exact traceable_call each
  | split left joint right tops leftTraced rightTraced =>
      exact traceable_append tops leftTraced rightTraced

/-- Tokens that read as an expression of the tree give the tree. -/
theorem Fills.ofTokens_eq {chain : Chain}
    (filled : tree.Fills precedence .whole (chain.expression precedence))
    (known : Reads tokens chain.terminals) : Tree.ofTokens precedence tokens = .ok tree := by
  have derived : chain.Derives (tokens.map lexeme) := by
    rw [Chain.Derives, List.map_map]
    exact known
  obtain ⟨built, success, refilled⟩ := chain.ofTokens precedence derived
  rw [success, refilled.unique filled]

/-- Parentheses around the tokens that a node was built from are redundant. The tokens are accepted
with them, and the tree stays the same. -/
theorem ofTokens_parentheses (precedence : Precedence) (tokens : List Token) (tree : Tree)
    (accepted : Tree.ofTokens precedence tokens = .ok tree) (id : NodeId)
    (inside : id < tree.size) (below : id ≠ root) :
    (∃ before part after, tokens = before ++ part ++ after ∧
        tree.BuiltFrom precedence id before part) ∧
      ∀ before part after, tokens = before ++ part ++ after →
        tree.BuiltFrom precedence id before part →
        ∀ opening closing : Token, opening.kind = .parenthesisOpen →
          closing.kind = .parenthesisClose →
          Tree.ofTokens precedence (before ++ opening :: (part ++ closing :: after)) =
            .ok tree := by
  have derivable := (Tree.ofTokens_ok_iff precedence tokens).mp ⟨tree, accepted⟩
  obtain ⟨chain, derived⟩ := derivable
  obtain ⟨built, success, filled⟩ := chain.ofTokens precedence derived
  obtain rfl : built = tree := Except.ok.inj (success.symm.trans accepted)
  have known : Reads tokens chain.terminals := by
    rwa [Chain.Derives, List.map_map] at derived
  have whole : Viable ([] ++ tokens) := ⟨[], chain, by simpa using derived⟩
  have traced := traceable precedence built chain [] tokens _ known whole filled.inside
  have upper : id < 1 + (chain.expression precedence).size := filled.size ▸ inside
  obtain ⟨sooner, core, later, split, made, wrapped, same, -, bracketed⟩ :=
    traced.inside id (Nat.pos_of_ne_zero below) upper
  rw [List.nil_append] at made
  refine ⟨⟨sooner, core, later, split, made⟩, ?_⟩
  -- All tokens that the node was built from are the ones that were traced.
  intro before part after cut remade opening closing opens closes
  obtain ⟨rfl, rfl, rfl⟩ := made.unique remade (split.symm.trans cut)
  rw [← same] at filled
  exact filled.ofTokens_eq (bracketed opening closing opens closes)

end Tree

/-- These are the tokens of `x*(y)`. -/
def productTokens : List Token :=
  [⟨.symbol, "x", .single 0⟩, ⟨.operator, "*", .single 1⟩, ⟨.parenthesisOpen, "(", .single 2⟩,
    ⟨.symbol, "y", .single 3⟩, ⟨.parenthesisClose, ")", .single 4⟩]

/-- These are the tokens of `+z` behind them. -/
def addendTokens : List Token := [⟨.operator, "+", .single 5⟩, ⟨.symbol, "z", .single 6⟩]

/-- This is the tree of `x*(y)+z` and also that of `(x*(y))+z`. -/
def sumTree : Tree :=
  ⟨#[⟨.root, "", [], [4], none⟩, ⟨.symbol, "x", [], [], some 2⟩, .operation "*" 2 [1, 3] 4,
    ⟨.symbol, "y", [], [], some 2⟩, .operation "+" 0 [2, 5] 0, ⟨.symbol, "z", [], [], some 4⟩]⟩

/-- The product keeps the parentheses of its right operand and gets its own ones. -/
theorem Tree.ofTokens_parentheses_sample :
    Tree.ofTokens .distinct (productTokens ++ addendTokens) = .ok sumTree ∧
      sumTree.BuiltFrom .distinct 2 [] productTokens ∧
      Tree.ofTokens .distinct ([] ++ ⟨.parenthesisOpen, "(", .point 0⟩ ::
        (productTokens ++ ⟨.parenthesisClose, ")", .point 5⟩ :: addendTokens)) = .ok sumTree := by
  have accepted : Tree.ofTokens .distinct (productTokens ++ addendTokens) = .ok sumTree := by
    cbv
  have left : sumTree.BuiltFrom .distinct 1 [] [⟨.symbol, "x", .single 0⟩] :=
    .value _ (.inr rfl) ⟨_, rfl, rfl⟩
  have right : sumTree.BuiltFrom .distinct 3 (productTokens.take 3) [⟨.symbol, "y", .single 3⟩] :=
    .value _ (.inr rfl) ⟨_, rfl, by cbv⟩
  have product : sumTree.BuiltFrom .distinct 2 [] productTokens :=
    @BuiltFrom.operator .distinct sumTree 2 1 3 [] [] [_] [] [_] [_] [_]
      ⟨.operator, "*", .single 1⟩ (.inl rfl) ⟨_, rfl, by cbv⟩ rfl left
      ⟨rfl, by simp, by simp⟩ right ⟨rfl, by simp, by simp⟩
  have stays := (ofTokens_parentheses .distinct _ sumTree accepted 2 (by decide) (by decide)).2
  exact ⟨accepted, product, stays [] productTokens addendTokens rfl product _ _ rfl rfl⟩

end GlslFormula
