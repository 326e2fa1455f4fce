import GlslFormula.Proofs.Division
import GlslFormula.Proofs.Recovery

namespace GlslFormula

open Grammar

namespace Operator

def isSum : Operator → Bool
  | .add | .sub => true
  | .mul | .div | .pow => false

def isProduct : Operator → Bool
  | .mul | .div => true
  | .add | .sub | .pow => false

/-- A sum or a difference stands at this place. -/
def SumAt (operators : List Operator) (place : Nat) : Prop :=
  ∃ operator, operators[place]? = some operator ∧ operator.isSum = true

/-- A product or a quotient stands at this place. -/
def ProductAt (operators : List Operator) (place : Nat) : Prop :=
  ∃ operator, operators[place]? = some operator ∧ operator.isProduct = true

/-- Sums always compete. Products compete when no sum stands between them. -/
def Competes (operators : List Operator) (first second : Nat) : Prop :=
  SumAt operators first ∧ SumAt operators second ∨
    ProductAt operators first ∧ ProductAt operators second ∧
      ∀ place, first < place ∧ place < second ∨ second < place ∧ place < first →
        ¬ SumAt operators place

/-- All operators at these places compete with each other. -/
structure Rivals (operators : List Operator) (places : Set Nat) : Prop where
  nonempty : places.Nonempty
  competes : ∀ first ∈ places, ∀ second ∈ places, Competes operators first second

/-- A difference before a sum or a quotient before a product is grouped the same under both
tables. -/
def Settled (operators : List Operator) (first second : Nat) : Prop :=
  operators[first]? = some .sub ∧ operators[second]? = some .add ∨
    operators[first]? = some .div ∧ operators[second]? = some .mul

/-- Each largest set of rivals is one operator, or two that are settled. -/
def Undisputed (operators : List Operator) : Prop :=
  ∀ places, Maximal (Rivals operators) places →
    (∃ place, places = {place}) ∨
      ∃ first second, first < second ∧ places = {first, second} ∧ Settled operators first second

/-- Each two operators that compete are settled. -/
def Untied (operators : List Operator) : Prop :=
  ∀ first second, first < second → Competes operators first second →
    Settled operators first second

variable {operators : List Operator} {first second third : Nat}

theorem ProductAt.not_sumAt (product : ProductAt operators first) : ¬ SumAt operators first := by
  obtain ⟨operator, found, isProduct⟩ := product
  rintro ⟨other, again, isSum⟩
  obtain rfl : operator = other := Option.some.inj (found.symm.trans again)
  cases operator <;> simp [Operator.isProduct, Operator.isSum] at isProduct isSum

theorem Competes.symm (competes : Competes operators first second) :
    Competes operators second first := by
  rcases competes with ⟨atFirst, atSecond⟩ | ⟨atFirst, atSecond, free⟩
  · exact .inl ⟨atSecond, atFirst⟩
  · exact .inr ⟨atSecond, atFirst, fun place between => free place between.symm⟩

theorem Competes.trans (competes : Competes operators first second)
    (next : Competes operators second third) : Competes operators first third := by
  rcases competes with ⟨atFirst, atSecond⟩ | ⟨atFirst, atSecond, free⟩
  · rcases next with ⟨-, atThird⟩ | ⟨product, -, -⟩
    · exact .inl ⟨atFirst, atThird⟩
    · exact absurd atSecond product.not_sumAt
  · rcases next with ⟨sum, -⟩ | ⟨-, atThird, stillFree⟩
    · exact absurd sum atSecond.not_sumAt
    · refine .inr ⟨atFirst, atThird, ?_⟩
      intro place between sum
      have near : (first < place ∧ place < second ∨ second < place ∧ place < first) ∨
          (second < place ∧ place < third ∨ third < place ∧ place < second) ∨
          place = second := by
        omega
      rcases near with onLeft | onRight | rfl
      · exact free place onLeft sum
      · exact stillFree place onRight sum
      · exact atSecond.not_sumAt sum

/-- Competition is an equivalence, so its classes are the largest sets of rivals. -/
theorem maximal_rivals (competes : Competes operators first second) :
    Maximal (Rivals operators) {place | Competes operators first place} := by
  have self : Competes operators first first := competes.trans competes.symm
  refine ⟨⟨⟨first, self⟩, fun one withOne other withOther => ?_⟩, ?_⟩
  · exact withOne.symm.trans withOther
  · intro larger rivals contained place member
    exact rivals.competes first (contained self) place member

theorem Settled.not_settled (settled : Settled operators first second) :
    ¬ Settled operators second third := by
  rintro (⟨next, -⟩ | ⟨next, -⟩) <;> rcases settled with ⟨-, found⟩ | ⟨-, found⟩ <;>
    simp [found] at next

/-- Three operators that compete are never all settled. -/
theorem Untied.eq_or_eq {places : Set Nat} (untied : Untied operators)
    (rivals : Rivals operators places) (ordered : first < second) (atFirst : first ∈ places)
    (atSecond : second ∈ places) (atThird : third ∈ places) :
    third = first ∨ third = second := by
  have settled : ∀ {one other : Nat}, one < other → one ∈ places → other ∈ places →
      Settled operators one other :=
    fun sooner atOne atOther => untied _ _ sooner (rivals.competes _ atOne _ atOther)
  have pair := settled ordered atFirst atSecond
  rcases Nat.lt_trichotomy third first with before | same | behind
  · exact absurd pair (settled before atThird atFirst).not_settled
  · exact .inl same
  · rcases Nat.lt_trichotomy third second with between | same | after
    · exact absurd (settled between atThird atSecond) (settled behind atFirst atThird).not_settled
    · exact .inr same
    · exact absurd (settled after atSecond atThird) pair.not_settled

theorem undisputed_iff_untied (operators : List Operator) :
    Undisputed operators ↔ Untied operators := by
  constructor
  · intro undisputed first second ordered competes
    have self : Competes operators first first := competes.trans competes.symm
    rcases undisputed _ (maximal_rivals competes) with
      ⟨only, alone⟩ | ⟨one, other, sooner, pair, settled⟩
    · have atFirst : first ∈ ({only} : Set Nat) := alone ▸ self
      have atSecond : second ∈ ({only} : Set Nat) := alone ▸ competes
      simp only [Set.mem_singleton_iff] at atFirst atSecond
      omega
    · have atFirst : first ∈ ({one, other} : Set Nat) := pair ▸ self
      have atSecond : second ∈ ({one, other} : Set Nat) := pair ▸ competes
      simp only [Set.mem_insert_iff, Set.mem_singleton_iff] at atFirst atSecond
      obtain ⟨rfl, rfl⟩ : first = one ∧ second = other := by omega
      exact settled
  · intro untied places maximal
    have rivals := maximal.prop
    rcases rivals.nonempty.exists_eq_singleton_or_nontrivial with alone | more
    · exact .inl alone
    · obtain ⟨first, atFirst, second, atSecond, ordered⟩ := more.exists_lt
      refine .inr ⟨first, second, ordered, ?_, ?_⟩
      · apply Set.Subset.antisymm
        · intro third atThird
          exact untied.eq_or_eq rivals ordered atFirst atSecond atThird
        · rintro third (rfl | rfl)
          · exact atFirst
          · exact atSecond
      · exact untied first second ordered (rivals.competes first atFirst second atSecond)

section Part

variable {before part after : List Operator} {place : Nat}

theorem getElem?_part (inside : place < part.length) :
    (before ++ part ++ after)[before.length + place]? = part[place]? := by
  rw [List.append_assoc, List.getElem?_append_right (Nat.le_add_right _ _),
    Nat.add_sub_cancel_left, List.getElem?_append_left inside]

theorem sumAt_part (inside : place < part.length) :
    SumAt (before ++ part ++ after) (before.length + place) ↔ SumAt part place := by
  rw [SumAt, SumAt, getElem?_part inside]

theorem productAt_part (inside : place < part.length) :
    ProductAt (before ++ part ++ after) (before.length + place) ↔ ProductAt part place := by
  rw [ProductAt, ProductAt, getElem?_part inside]

theorem settled_part (firstInside : first < part.length) (secondInside : second < part.length) :
    Settled (before ++ part ++ after) (before.length + first) (before.length + second) ↔
      Settled part first second := by
  rw [Settled, Settled, getElem?_part firstInside, getElem?_part secondInside]

/-- A part of a chain has the competitions of the whole that lie inside of it. -/
theorem competes_part (firstInside : first < part.length) (secondInside : second < part.length) :
    Competes (before ++ part ++ after) (before.length + first) (before.length + second) ↔
      Competes part first second := by
  rw [Competes, Competes, sumAt_part firstInside, sumAt_part secondInside,
    productAt_part firstInside, productAt_part secondInside]
  refine or_congr_right (and_congr_right fun _ => and_congr_right fun _ => ?_)
  constructor
  · intro free place between sum
    exact free (before.length + place) (by omega) ((sumAt_part (by omega)).mpr sum)
  · intro free place between sum
    obtain ⟨inner, rfl⟩ : ∃ inner, place = before.length + inner :=
      ⟨place - before.length, by omega⟩
    exact free inner (by omega) ((sumAt_part (by omega)).mp sum)

theorem Competes.lt_length (competes : Competes operators first second) :
    second < operators.length := by
  rcases competes with ⟨-, operator, found, -⟩ | ⟨-, ⟨operator, found, -⟩, -⟩ <;>
    exact (List.getElem?_eq_some_iff.mp found).1

theorem Untied.of_append (before part after : List Operator)
    (untied : Untied (before ++ part ++ after)) : Untied part := by
  intro first second ordered competes
  have inside := competes.lt_length
  have whole : Competes (before ++ part ++ after) (before.length + first)
      (before.length + second) := (competes_part (by omega) inside).mpr competes
  exact (settled_part (by omega) inside).mp (untied _ _ (by omega) whole)

theorem Untied.settled_append (untied : Untied part) (before after : List Operator)
    (ordered : first < second) (inside : second < part.length)
    (competes : Competes (before ++ part ++ after) (before.length + first)
      (before.length + second)) :
    Settled (before ++ part ++ after) (before.length + first) (before.length + second) := by
  rw [competes_part (by omega) inside] at competes
  rw [settled_part (by omega) inside]
  exact untied first second ordered competes

end Part

section Cut

variable {before after : List Operator} {operator other : Operator} {place : Nat}

theorem getElem?_cut : (before ++ operator :: after)[before.length]? = some operator := by
  rw [List.getElem?_append_right (Nat.le_refl _), Nat.sub_self]
  rfl

theorem getElem?_behind :
    (before ++ operator :: after)[before.length + 1 + place]? = after[place]? := by
  rw [List.getElem?_append_right (by omega),
    show before.length + 1 + place - before.length = place + 1 by omega]
  rfl

theorem mem_before (sooner : place < before.length)
    (found : (before ++ operator :: after)[place]? = some other) : other ∈ before := by
  rw [List.getElem?_append_left sooner] at found
  exact List.mem_of_getElem? found

theorem mem_after (later : before.length < place)
    (found : (before ++ operator :: after)[place]? = some other) : other ∈ after := by
  obtain ⟨inner, rfl⟩ : ∃ inner, place = before.length + 1 + inner :=
    ⟨place - before.length - 1, by omega⟩
  rw [getElem?_behind] at found
  exact List.mem_of_getElem? found

end Cut

end Operator

namespace Precedence

open Operator

/-- The conventional table takes over where the distinct table does. -/
theorem conventional_takes {existing incoming : Operator}
    (takes : distinct.mustClimb (distinct.rank existing) (some incoming) = true) :
    conventional.mustClimb (conventional.rank existing) (some incoming) = true := by
  cases existing <;> cases incoming <;> revert takes <;> decide

/-- Only a tie is decided in different ways. -/
theorem tie_of_conventional_takes {existing incoming : Operator}
    (keeps : distinct.mustClimb (distinct.rank existing) (some incoming) = false)
    (takes : conventional.mustClimb (conventional.rank existing) (some incoming) = true) :
    (existing.isSum = true ∧ incoming.isSum = true ∨
        existing.isProduct = true ∧ incoming.isProduct = true) ∧
      ¬ (existing = .sub ∧ incoming = .add) ∧ ¬ (existing = .div ∧ incoming = .mul) := by
  cases existing <;> cases incoming <;> revert keeps takes <;> decide

theorem not_sum_of_distinct_keeps {existing incoming : Operator}
    (keeps : distinct.mustClimb (distinct.rank existing) (some incoming) = false)
    (isProduct : existing.isProduct = true) : incoming.isSum = false := by
  cases existing <;> cases incoming <;> revert keeps isProduct <;> decide

theorem settled_of_distinct_takes {existing incoming : Operator}
    (takes : distinct.mustClimb (distinct.rank existing) (some incoming) = true) :
    (existing.isSum = true → incoming.isSum = true → existing = .sub ∧ incoming = .add) ∧
      (existing.isProduct = true → incoming.isProduct = true →
        existing = .div ∧ incoming = .mul) := by
  cases existing <;> cases incoming <;> revert takes <;> decide

theorem conventional_keeps {existing incoming : Operator}
    (keeps : conventional.mustClimb (conventional.rank existing) (some incoming) = false) :
    incoming.isSum = false ∧ (incoming.isProduct = true → existing.isSum = true) := by
  cases existing <;> cases incoming <;> revert keeps <;> decide

variable {before after : List Operator} {operator : Operator}

/-- Without ties the same operator is on top. -/
theorem Tops.conventional (tops : distinct.Tops before operator after)
    (untied : Untied (before ++ operator :: after)) :
    Precedence.conventional.Tops before operator after := by
  refine ⟨fun other member => conventional_takes (tops.1 other member), ?_⟩
  intro other member
  by_contra takes
  rw [Bool.not_eq_false] at takes
  obtain ⟨place, found⟩ := List.mem_iff_getElem?.mp member
  have behind : (before ++ operator :: after)[before.length + 1 + place]? = some other :=
    getElem?_behind.trans found
  obtain ⟨tie, notSum, notProduct⟩ := tie_of_conventional_takes (tops.2 other member) takes
  have competes : Competes (before ++ operator :: after) before.length
      (before.length + 1 + place) := by
    rcases tie with ⟨isSum, otherSum⟩ | ⟨isProduct, otherProduct⟩
    · exact .inl ⟨⟨operator, getElem?_cut, isSum⟩, ⟨other, behind, otherSum⟩⟩
    · refine .inr ⟨⟨operator, getElem?_cut, isProduct⟩, ⟨other, behind, otherProduct⟩, ?_⟩
      -- A sum behind the product would be on top of it.
      rintro middle between ⟨sum, sumFound, isSum⟩
      have keeps := tops.2 sum (mem_after (by omega) sumFound)
      simp [not_sum_of_distinct_keeps keeps isProduct] at isSum
  rcases untied _ _ (by omega) competes with ⟨first, second⟩ | ⟨first, second⟩ <;>
    rw [getElem?_cut, Option.some.injEq] at first <;>
    rw [behind, Option.some.injEq] at second
  · exact notSum ⟨first, second⟩
  · exact notProduct ⟨first, second⟩

/-- An operator that is on top under both tables is not tied with any operator behind it. -/
theorem Tops.untied (tops : distinct.Tops before operator after)
    (conventionally : Precedence.conventional.Tops before operator after)
    (onLeft : Untied before) (onRight : Untied after) : Untied (before ++ operator :: after) := by
  intro first second ordered competes
  rcases Nat.lt_trichotomy second before.length with sooner | atTop | later
  · have settled := onLeft.settled_append [] (operator :: after) ordered sooner
      (by simpa using competes)
    simpa using settled
  · subst atTop
    rcases competes with ⟨⟨other, found, isSum⟩, ⟨top, cut, topSum⟩⟩ |
      ⟨⟨other, found, isProduct⟩, ⟨top, cut, topProduct⟩, -⟩
    · obtain rfl : operator = top := Option.some.inj (getElem?_cut.symm.trans cut)
      have takes := tops.1 other (mem_before ordered found)
      obtain ⟨rfl, rfl⟩ := (settled_of_distinct_takes takes).1 isSum topSum
      exact .inl ⟨found, cut⟩
    · obtain rfl : operator = top := Option.some.inj (getElem?_cut.symm.trans cut)
      have takes := tops.1 other (mem_before ordered found)
      obtain ⟨rfl, rfl⟩ := (settled_of_distinct_takes takes).2 isProduct topProduct
      exact .inr ⟨found, cut⟩
  · rcases Nat.lt_or_ge before.length first with behind | across
    · obtain ⟨one, rfl⟩ : ∃ one, first = before.length + 1 + one :=
        ⟨first - before.length - 1, by omega⟩
      obtain ⟨other, rfl⟩ : ∃ other, second = before.length + 1 + other :=
        ⟨second - before.length - 1, by omega⟩
      have inside := competes.lt_length
      rw [List.length_append, List.length_cons] at inside
      have sooner : one < other := by omega
      have settled := onRight.settled_append (before ++ [operator]) [] sooner (by omega)
        (by simpa using competes)
      simpa using settled
    -- The conventional table keeps the operator on top only before products, when it is a sum.
    · rcases competes with ⟨-, other, found, isSum⟩ | ⟨product, ⟨other, found, isProduct⟩, free⟩
      · have keeps := conventionally.2 other (mem_after later found)
        simp [(conventional_keeps keeps).1] at isSum
      · have keeps := conventionally.2 other (mem_after later found)
        have sum : SumAt (before ++ operator :: after) before.length :=
          ⟨operator, getElem?_cut, (conventional_keeps keeps).2 isProduct⟩
        rcases Nat.eq_or_lt_of_le across with rfl | between
        · exact absurd sum product.not_sumAt
        · exact absurd sum (free _ (.inl ⟨between, later⟩))

end Precedence

namespace Grammar

open Operator

mutual

/-- These are the chains in the groups and arguments of a value. -/
def Value.inside : Value → List Chain
  | .number _ => []
  | .symbol _ => []
  | .group inner => inner :: inner.inside
  | .call _ arguments => arguments.inside

def Chain.inside : Chain → List Chain
  | .single value => value.inside
  | .join value _ rest => value.inside ++ rest.inside

def Arguments.inside : Arguments → List Chain
  | .last argument => argument :: argument.inside
  | .more argument rest => argument :: argument.inside ++ rest.inside

end

/-- A chain and all chains in its groups and arguments. -/
def Chain.parts (chain : Chain) : List Chain := chain :: chain.inside

theorem Chain.inside_append (left : Chain) (joint : Joint) (right : Chain) :
    (left.append joint right).inside = left.inside ++ right.inside := by
  match left with
  | .single value => rfl
  | .join value first rest => simp [append, inside, rest.inside_append joint right]

theorem Arguments.inside_eq_flatMap (arguments : Arguments) :
    arguments.inside = arguments.chains.flatMap Chain.parts := by
  match arguments with
  | .last argument => simp [inside, chains, Chain.parts]
  | .more argument rest => simp [inside, chains, Chain.parts, rest.inside_eq_flatMap]

/-- The number of nodes on the left fixes a division. -/
theorem Chain.append_inj {left right other rest : Chain} {joint second : Joint}
    (same : left.append joint right = other.append second rest)
    (count : left.terminals.countP Terminal.hasNode = other.terminals.countP Terminal.hasNode) :
    left = other ∧ joint = second ∧ right = rest := by
  match left, other with
  | .single value, .single _ =>
      cases same
      exact ⟨rfl, rfl, rfl⟩
  | .single value, .join _ _ _ =>
      cases same
      simp [terminals, Terminal.hasNode] at count
  | .join value first more, .single _ =>
      cases same
      simp [terminals, Terminal.hasNode] at count
  | .join value first more, .join _ _ _ =>
      obtain ⟨rfl, rfl, tails⟩ := Chain.join.inj same
      simp only [terminals, List.countP_append, List.countP_cons] at count
      obtain ⟨rfl, rfl, rfl⟩ := append_inj tails (by omega)
      exact ⟨rfl, rfl, rfl⟩

theorem Chain.untied_parts_single (value : Value) :
    (∀ part ∈ (Chain.single value).parts, Untied part.operators) ↔
      ∀ part ∈ value.inside, Untied part.operators := by
  have alone : Untied (Chain.single value).operators := by
    intro first second ordered competes
    exact absurd competes.lt_length (Nat.not_lt_zero second)
  rw [parts, List.forall_mem_cons]
  exact and_iff_right alone

/-- A division at the top is the same under both tables when they give the same expression. -/
theorem Chain.tops_conventional {left right : Chain} {joint : Joint}
    (same : (left.append joint right).expression .conventional =
      .operator joint.operator (left.expression .distinct) (right.expression .distinct)) :
    Precedence.conventional.Tops left.operators joint.operator right.operators := by
  rcases (left.append joint right).single_or_tops .conventional with
    ⟨value, alone⟩ | ⟨other, second, rest, divided, tops⟩
  · cases left <;> simp [append] at alone
  -- The left operands have as many nodes, so both tables divide the chain at the same operator.
  · rw [divided, expression_append tops] at same
    have sizes := congrArg Expression.size (Expression.operator.inj same).2.1
    rw [size_expression, size_expression] at sizes
    obtain ⟨rfl, rfl, rfl⟩ := append_inj divided sizes.symm
    exact tops

/-- The two tables give a chain the same expression exactly when no part of it is tied. -/
theorem Chain.expression_eq_iff (chain : Chain) :
    chain.expression .distinct = chain.expression .conventional ↔
      ∀ part ∈ chain.parts, Untied part.operators := by
  induction chain using Chain.topInduction .distinct with
  | number text =>
      rw [untied_parts_single, expression_single, expression_single]
      simp [Value.inside, Value.expression]
  | symbol text =>
      rw [untied_parts_single, expression_single, expression_single]
      simp [Value.inside, Value.expression]
  | group inner inductionHypothesis =>
      rw [untied_parts_single, expression_single, expression_single]
      exact inductionHypothesis
  | call name arguments inductionHypothesis =>
      rw [untied_parts_single, expression_single, expression_single, Value.expression,
        Value.expression, Expression.call.injEq, Arguments.expressions_eq_map,
        Arguments.expressions_eq_map, List.map_inj_left, Value.inside,
        Arguments.inside_eq_flatMap, List.forall_mem_flatMap]
      simp only [true_and]
      exact forall₂_congr inductionHypothesis
  | split left joint right tops onLeft onRight =>
      rw [parts, List.forall_mem_cons] at onLeft onRight ⊢
      rw [operators_append, inside_append, List.forall_mem_append, expression_append tops]
      constructor
      · intro same
        have conventionally := tops_conventional same.symm
        rw [expression_append conventionally, Expression.operator.injEq] at same
        obtain ⟨leftUntied, leftInside⟩ := onLeft.mp same.2.1
        obtain ⟨rightUntied, rightInside⟩ := onRight.mp same.2.2
        exact ⟨tops.untied conventionally leftUntied rightUntied, leftInside, rightInside⟩
      · rintro ⟨untied, leftInside, rightInside⟩
        have leftUntied : Untied left.operators := untied.of_append [] _ _
        have rightUntied : Untied right.operators := by
          apply Untied.of_append (left.operators ++ [joint.operator]) right.operators []
          simpa using untied
        rw [expression_append (tops.conventional untied), onLeft.mpr ⟨leftUntied, leftInside⟩,
          onRight.mpr ⟨rightUntied, rightInside⟩]

end Grammar

/-- A token list has the same tree under both tables, up to the ranks, exactly when each largest
set of rivals in its chains is settled. -/
theorem Tree.tables_agree_iff (precedence : Precedence) (tokens : List Token) (tree : Tree)
    (accepted : Tree.ofTokens precedence tokens = .ok tree) :
    (∃ chain : Chain, chain.Derives (tokens.map Token.lexeme)) ∧
      ∀ chain : Chain, chain.Derives (tokens.map Token.lexeme) →
        ∃ distinct conventional, Tree.ofTokens .distinct tokens = .ok distinct ∧
          Tree.ofTokens .conventional tokens = .ok conventional ∧
          (distinct.unranked = conventional.unranked ↔
            ∀ part ∈ chain.parts, Operator.Undisputed part.operators) := by
  refine ⟨(Tree.ofTokens_ok_iff precedence tokens).mp ⟨tree, accepted⟩, ?_⟩
  intro chain derived
  obtain ⟨distinct, distinctAccepted, distinctFilled⟩ := chain.ofTokens .distinct derived
  obtain ⟨conventional, conventionalAccepted, conventionalFilled⟩ :=
    chain.ofTokens .conventional derived
  refine ⟨distinct, conventional, distinctAccepted, conventionalAccepted, ?_⟩
  rw [Tree.unranked_eq_iff distinctFilled conventionalFilled, chain.expression_eq_iff]
  simp only [Operator.undisputed_iff_untied]

/-- These are the tokens of `(x-y+z)/wv`. -/
def settledTokens : List Token :=
  [⟨.parenthesisOpen, "(", .single 0⟩, ⟨.symbol, "x", .single 1⟩, ⟨.operator, "-", .single 2⟩,
    ⟨.symbol, "y", .single 3⟩, ⟨.operator, "+", .single 4⟩, ⟨.symbol, "z", .single 5⟩,
    ⟨.parenthesisClose, ")", .single 6⟩, ⟨.operator, "/", .single 7⟩, ⟨.symbol, "w", .single 8⟩,
    ⟨.implicitMultiply, "", .point 9⟩, ⟨.symbol, "v", .single 9⟩]

def settledChain : Chain :=
  .join (.group (.join (.symbol "x") (.sign .sub)
      (.join (.symbol "y") (.sign .add) (.single (.symbol "z"))))) (.sign .div)
    (.join (.symbol "w") .adjacent (.single (.symbol "v")))

/-- Both chains of the formula are settled, so the two trees agree. -/
theorem Tree.tables_agree_iff_sample :
    ∃ distinct conventional, Tree.ofTokens .distinct settledTokens = .ok distinct ∧
      Tree.ofTokens .conventional settledTokens = .ok conventional ∧
      distinct.unranked = conventional.unranked := by
  have derived : settledChain.Derives (settledTokens.map Token.lexeme) := rfl
  obtain ⟨tree, accepted⟩ :=
    (Tree.ofTokens_ok_iff .distinct settledTokens).mpr ⟨settledChain, derived⟩
  obtain ⟨distinct, conventional, distinctAccepted, conventionalAccepted, agree⟩ :=
    (Tree.tables_agree_iff .distinct settledTokens tree accepted).2 settledChain derived
  refine ⟨distinct, conventional, distinctAccepted, conventionalAccepted, agree.mpr ?_⟩
  have pair : ∀ {one other : Operator}, Operator.Settled [one, other] 0 1 →
      Operator.Undisputed [one, other] := by
    intro one other settled
    rw [Operator.undisputed_iff_untied]
    intro first second ordered competes
    have inside := competes.lt_length
    rw [List.length_cons, List.length_singleton] at inside
    obtain ⟨rfl, rfl⟩ : first = 0 ∧ second = 1 := by omega
    exact settled
  rintro part (_ | ⟨_, _ | ⟨_, impossible⟩⟩)
  · exact pair (.inr ⟨rfl, rfl⟩)
  · exact pair (.inl ⟨rfl, rfl⟩)
  · cases impossible

end GlslFormula
