import GlslFormula.Proofs.Expression

namespace GlslFormula

/-- An operator and its right neighbour in a chain. -/
structure Link where
  operator : Operator
  operand : Expression

namespace Link

/-- No operator of the chain binds looser. -/
def isLowest (precedence : Precedence) (links : List Link) (link : Link) : Bool :=
  links.all fun other => precedence.rank link.operator ≤ precedence.rank other.operator

/-- This is the position of the first operator of the lowest rank. -/
def leftmost (precedence : Precedence) (links : List Link) : Nat :=
  links.findIdx (isLowest precedence links)

/-- This is the position of the last operator of the lowest rank. -/
def rightmost (precedence : Precedence) (links : List Link) : Nat :=
  links.length - 1 - links.reverse.findIdx (isLowest precedence links)

/-- The top of a chain is the leftmost operator of the lowest rank. Only the conventional table
takes the rightmost one, except for powers. -/
def pivot (precedence : Precedence) (links : List Link) : Nat :=
  match precedence, links.find? (isLowest precedence links) with
  | .distinct, _ => leftmost precedence links
  | .conventional, some ⟨.pow, _⟩ => leftmost precedence links
  | .conventional, _ => rightmost precedence links

/-- The two sides of the top operator are arranged in the same way. -/
def arrange (precedence : Precedence) (first : Expression) (links : List Link) : Expression :=
  match found : links[pivot precedence links]? with
  | none => first
  | some link =>
      .operator link.operator
        (arrange precedence first (links.take (pivot precedence links)))
        (arrange precedence link.operand (links.drop (pivot precedence links + 1)))
termination_by links.length
decreasing_by
  all_goals
    have inside := (List.getElem?_eq_some_iff.mp found).1
    simp only [List.length_take, List.length_drop]
    omega

theorem arrange_nil (precedence : Precedence) (first : Expression) :
    arrange precedence first [] = first := by
  rw [arrange]
  rfl

theorem arrange_append {precedence : Precedence} (first : Expression) (before : List Link)
    (link : Link) (after : List Link)
    (chosen : pivot precedence (before ++ link :: after) = before.length) :
    arrange precedence first (before ++ link :: after) =
      .operator link.operator (arrange precedence first before)
        (arrange precedence link.operand after) := by
  have found : (before ++ link :: after)[pivot precedence (before ++ link :: after)]? =
      some link := by
    rw [chosen]
    simp
  rw [arrange]
  split
  case h_1 missing => simp [found] at missing
  case h_2 other same =>
    rw [found] at same
    obtain rfl := Option.some.inj same
    rw [chosen]
    simp

theorem rank_le_of_isLowest {precedence : Precedence} {links : List Link} {link other : Link}
    (lowest : isLowest precedence links link = true) (member : other ∈ links) :
    precedence.rank link.operator ≤ precedence.rank other.operator := by
  simp only [isLowest, List.all_eq_true, decide_eq_true_eq] at lowest
  exact lowest other member

theorem rank_lt_of_isLowest {precedence : Precedence} {links : List Link} {link other : Link}
    (lowest : isLowest precedence links link = true)
    (higher : isLowest precedence links other = false) :
    precedence.rank link.operator < precedence.rank other.operator := by
  simp only [isLowest, List.all_eq_false, decide_eq_true_eq, Nat.not_le] at higher
  obtain ⟨third, member, less⟩ := higher
  exact Nat.lt_of_le_of_lt (rank_le_of_isLowest lowest member) less

theorem exists_isLowest (precedence : Precedence) {links : List Link} (nonempty : links ≠ []) :
    ∃ link ∈ links, isLowest precedence links link = true := by
  obtain ⟨link, least⟩ : ∃ link, links.argmin (fun link => precedence.rank link.operator) =
      some link := by
    cases result : links.argmin (fun link => precedence.rank link.operator) with
    | none => exact absurd (List.argmin_eq_none.mp result) nonempty
    | some link => exact ⟨link, rfl⟩
  refine ⟨link, List.argmin_mem least, ?_⟩
  simp only [isLowest, List.all_eq_true, decide_eq_true_eq]
  intro other member
  have bound := List.le_of_mem_argmin member least
  exact bound

/-- A search from the left stops at the first link that it accepts. -/
theorem findIdx_split {accepts : Link → Bool} {links : List Link}
    (present : ∃ link ∈ links, accepts link = true) :
    ∃ before link after, links = before ++ link :: after ∧
      links.findIdx accepts = before.length ∧ links.find? accepts = some link ∧
      accepts link = true ∧ ∀ other ∈ before, accepts other = false := by
  obtain ⟨link, found⟩ := Option.isSome_iff_exists.mp (List.find?_isSome.mpr present)
  obtain ⟨accepted, before, after, rfl, refused⟩ := List.find?_eq_some_iff_append.mp found
  refine ⟨before, link, after, rfl, ?_, found, accepted, ?_⟩
  · rw [List.findIdx_append, List.findIdx_eq_length.mpr (by simpa using refused)]
    simp [List.findIdx_cons, accepted]
  · simpa using refused

/-- A search from the right stops at the last link that it accepts. -/
theorem rightmost_split (precedence : Precedence) {links : List Link} (nonempty : links ≠ []) :
    ∃ before link after, links = before ++ link :: after ∧
      rightmost precedence links = before.length ∧ isLowest precedence links link = true ∧
      ∀ other ∈ after, isLowest precedence links other = false := by
  obtain ⟨link, member, lowest⟩ := exists_isLowest precedence nonempty
  obtain ⟨before, link, after, split, place, _, accepted, refused⟩ :=
    findIdx_split ⟨link, List.mem_reverse.mpr member, lowest⟩
  refine ⟨after.reverse, link, before.reverse, ?_, ?_, accepted, ?_⟩
  · rw [← List.reverse_reverse links, split]
    simp
  · have length := congrArg List.length split
    simp only [List.length_reverse, List.length_append, List.length_cons] at length
    rw [rightmost, place, List.length_reverse]
    omega
  · intro other inside
    exact refused other (List.mem_reverse.mp inside)

/-- The incoming operator takes over tighter operators and leaves looser ones. -/
theorem mustClimb_of_lt {precedence : Precedence} {existing incoming : Operator}
    (tighter : precedence.rank incoming < precedence.rank existing) :
    precedence.mustClimb (precedence.rank existing) (some incoming) = true := by
  rw [Precedence.mustClimb, Precedence.incomingRank, if_neg (Nat.ne_of_gt tighter)]
  exact decide_eq_true tighter

theorem mustClimb_of_gt {precedence : Precedence} {existing incoming : Operator}
    (looser : precedence.rank existing < precedence.rank incoming) :
    precedence.mustClimb (precedence.rank existing) (some incoming) = false := by
  rw [Precedence.mustClimb, Precedence.incomingRank, if_neg (Nat.ne_of_lt looser)]
  exact decide_eq_false (Nat.not_lt.mpr (Nat.le_of_lt looser))

theorem mustClimb_of_eq {precedence : Precedence} {existing incoming : Operator}
    (tie : precedence.rank existing = precedence.rank incoming) :
    precedence.mustClimb (precedence.rank existing) (some incoming) =
      precedence.climbsOnTie (some incoming) := by
  rw [Precedence.mustClimb, Precedence.incomingRank, if_pos tie]

/-- Powers are ranked alone, so a tie with a power is a power. -/
theorem isPower_of_tie {precedence : Precedence} {operator : Operator}
    (tie : precedence.rank .pow = precedence.rank operator) : operator = .pow := by
  revert tie
  cases precedence <;> cases operator <;> decide

example : Operator.all.map Precedence.distinct.rank = [0, 1, 2, 3, 4] ∧
    Operator.all.map Precedence.conventional.rank = [0, 0, 1, 1, 2] := by decide

/-- The top operator takes over what is on its left and is not taken over on its right. -/
def IsTop (precedence : Precedence) (before : List Link) (link : Link) (after : List Link) :
    Prop :=
  (∀ other ∈ before,
    precedence.mustClimb (precedence.rank other.operator) (some link.operator) = true) ∧
  ∀ other ∈ after,
    precedence.mustClimb (precedence.rank link.operator) (some other.operator) = false

/-- The leftmost operator is the top when later ties do not climb. -/
theorem isTop_of_leftmost {precedence : Precedence} {before after : List Link} {link : Link}
    (lowest : isLowest precedence (before ++ link :: after) link = true)
    (strict : ∀ other ∈ before, isLowest precedence (before ++ link :: after) other = false)
    (stays : ∀ other : Operator, precedence.rank link.operator = precedence.rank other →
      precedence.climbsOnTie (some other) = false) :
    IsTop precedence before link after := by
  constructor
  · intro other member
    exact mustClimb_of_lt (rank_lt_of_isLowest lowest (strict other member))
  · intro other member
    have bound := rank_le_of_isLowest lowest
      (List.mem_append_right before (List.mem_cons_of_mem link member))
    rcases Nat.lt_or_eq_of_le bound with less | tie
    · exact mustClimb_of_gt less
    · rw [mustClimb_of_eq tie]
      exact stays other.operator tie

/-- The rightmost operator is the top when it climbs on ties. -/
theorem isTop_of_rightmost {precedence : Precedence} {before after : List Link} {link : Link}
    (lowest : isLowest precedence (before ++ link :: after) link = true)
    (strict : ∀ other ∈ after, isLowest precedence (before ++ link :: after) other = false)
    (climbs : precedence.climbsOnTie (some link.operator) = true) :
    IsTop precedence before link after := by
  constructor
  · intro other member
    have bound := rank_le_of_isLowest lowest (List.mem_append_left (link :: after) member)
    rcases Nat.lt_or_eq_of_le bound with less | tie
    · exact mustClimb_of_lt less
    · rw [mustClimb_of_eq tie.symm]
      exact climbs
  · intro other member
    exact mustClimb_of_gt (rank_lt_of_isLowest lowest (strict other member))

theorem pivot_eq_leftmost {precedence : Precedence} {links : List Link} {link : Link}
    (found : links.find? (isLowest precedence links) = some link)
    (case : precedence = .distinct ∨ link.operator = .pow) :
    pivot precedence links = leftmost precedence links := by
  obtain ⟨operator, operand⟩ := link
  unfold pivot
  rw [found]
  rcases case with rfl | power
  · rfl
  · cases precedence <;> cases power <;> rfl

theorem pivot_eq_rightmost {links : List Link} {link : Link}
    (found : links.find? (isLowest .conventional links) = some link)
    (case : link.operator ≠ .pow) : pivot .conventional links = rightmost .conventional links := by
  obtain ⟨operator, operand⟩ := link
  unfold pivot
  rw [found]
  cases operator with
  | pow => exact absurd rfl case
  | _ => rfl

/-- Operators that are not powers group to the left in the conventional table. -/
theorem climbsOnTie_conventional {operator : Operator} (case : operator ≠ .pow) :
    Precedence.conventional.climbsOnTie (some operator) = true := by
  cases operator with
  | pow => exact absurd rfl case
  | _ => rfl

/-- The pivot is the position of the top operator. -/
theorem pivot_split (precedence : Precedence) {links : List Link} (nonempty : links ≠ []) :
    ∃ before link after, links = before ++ link :: after ∧
      pivot precedence links = before.length ∧ IsTop precedence before link after := by
  obtain ⟨before, link, after, split, place, found, lowest, strict⟩ :=
    findIdx_split (exists_isLowest precedence nonempty)
  by_cases case : precedence = .distinct ∨ link.operator = .pow
  · have chosen := (pivot_eq_leftmost found case).trans place
    subst split
    refine ⟨before, link, after, rfl, chosen, isTop_of_leftmost lowest strict ?_⟩
    intro other tie
    rcases case with rfl | power
    · rfl
    · rw [power] at tie
      rw [isPower_of_tie tie]
      cases precedence <;> rfl
  · obtain ⟨table, notPower⟩ := not_or.mp case
    obtain rfl : precedence = .conventional := by
      cases precedence with
      | distinct => exact absurd rfl table
      | conventional => rfl
    obtain ⟨sooner, last, later, rightSplit, rightPlace, rightLowest, rightStrict⟩ :=
      rightmost_split .conventional nonempty
    have chosen := (pivot_eq_rightmost found notPower).trans rightPlace
    have notLastPower : last.operator ≠ .pow := by
      intro power
      have first : link ∈ links := List.mem_of_find?_eq_some found
      have second : last ∈ links := by
        rw [rightSplit]
        simp
      have tie := Nat.le_antisymm (rank_le_of_isLowest rightLowest first)
        (rank_le_of_isLowest lowest second)
      rw [power] at tie
      exact notPower (isPower_of_tie tie)
    subst rightSplit
    exact ⟨sooner, last, later, rfl, chosen,
      isTop_of_rightmost rightLowest rightStrict (climbsOnTie_conventional notLastPower)⟩

/-- A fact about chains follows from the facts about both sides of the top operator. -/
theorem pivotInduction {motive : Expression → List Link → Prop} (precedence : Precedence)
    (single : ∀ first, motive first [])
    (split : ∀ first before link after,
      pivot precedence (before ++ link :: after) = before.length →
      IsTop precedence before link after → motive first before → motive link.operand after →
      motive first (before ++ link :: after))
    (first : Expression) (links : List Link) : motive first links := by
  by_cases nonempty : links = []
  · rw [nonempty]
    exact single first
  · obtain ⟨before, link, after, same, chosen, isTop⟩ := pivot_split precedence nonempty
    subst same
    exact split first before link after chosen isTop
      (pivotInduction precedence single split first before)
      (pivotInduction precedence single split link.operand after)
termination_by links.length
decreasing_by
  all_goals
    subst same
    simp only [List.length_append, List.length_cons]
    omega

end Link

/-- An operator that still needs its right operand. -/
structure Pending where
  operator : Operator
  left : Expression

namespace Pending

/-- The incoming operator takes over the latest pending ones, down to the first that binds
looser. -/
def climb (precedence : Precedence) (incoming : Operator) :
    List Pending → Expression → List Pending × Expression
  | [], value => ([], value)
  | latest :: rest, value =>
      if precedence.mustClimb (precedence.rank latest.operator) (some incoming) then
        climb precedence incoming rest (.operator latest.operator latest.left value)
      else (latest :: rest, value)

/-- At the end of a chain the pending operators get their right operands. -/
def close : List Pending → Expression → Expression
  | [], value => value
  | latest :: rest, value => close rest (.operator latest.operator latest.left value)

/-- The links of a chain are read from left to right. -/
def read (precedence : Precedence) :
    List Pending → Expression → List Link → List Pending × Expression
  | pending, value, [] => (pending, value)
  | pending, value, link :: links =>
      read precedence
        (⟨link.operator, (climb precedence link.operator pending value).2⟩ ::
          (climb precedence link.operator pending value).1)
        link.operand links

variable {precedence : Precedence}

theorem climb_all {incoming : Operator} {pending : List Pending} {value : Expression}
    (tighter : ∀ each ∈ pending,
      precedence.mustClimb (precedence.rank each.operator) (some incoming) = true) :
    climb precedence incoming pending value = ([], close pending value) := by
  induction pending generalizing value with
  | nil => rfl
  | cons latest rest inductionHypothesis =>
      rw [climb, if_pos (tighter latest (List.mem_cons_self ..))]
      exact inductionHypothesis fun each member => tighter each (List.mem_cons_of_mem latest member)

/-- An operator that is not taken over stays at the bottom. -/
theorem climb_concat {incoming : Operator} {bottom : Pending}
    (stays : precedence.mustClimb (precedence.rank bottom.operator) (some incoming) = false)
    (pending : List Pending) (value : Expression) :
    climb precedence incoming (pending ++ [bottom]) value =
      ((climb precedence incoming pending value).1 ++ [bottom],
        (climb precedence incoming pending value).2) := by
  induction pending generalizing value with
  | nil => simp [climb, stays]
  | cons latest rest inductionHypothesis =>
      rw [List.cons_append, climb, climb]
      split
      · exact inductionHypothesis _
      · rfl

theorem close_concat (pending : List Pending) (bottom : Pending) (value : Expression) :
    close (pending ++ [bottom]) value =
      .operator bottom.operator bottom.left (close pending value) := by
  induction pending generalizing value with
  | nil => rfl
  | cons latest rest inductionHypothesis => exact inductionHypothesis _

theorem mem_of_mem_climb {incoming : Operator} {pending : List Pending} {value : Expression}
    {each : Pending} (member : each ∈ (climb precedence incoming pending value).1) :
    each ∈ pending := by
  induction pending generalizing value with
  | nil => exact member
  | cons latest rest inductionHypothesis =>
      rw [climb] at member
      split at member
      · exact List.mem_cons_of_mem latest (inductionHypothesis member)
      · exact member

theorem read_append (pending : List Pending) (value : Expression) (first second : List Link) :
    read precedence pending value (first ++ second) =
      read precedence (read precedence pending value first).1
        (read precedence pending value first).2 second := by
  induction first generalizing pending value with
  | nil => rfl
  | cons link links inductionHypothesis => exact inductionHypothesis _ _

/-- Only operators of the chain are pending. -/
theorem operator_of_mem_read {pending : List Pending} {value : Expression} {links : List Link}
    {each : Pending} (member : each ∈ (read precedence pending value links).1) :
    each ∈ pending ∨ ∃ link ∈ links, each.operator = link.operator := by
  induction links generalizing pending value with
  | nil => exact .inl member
  | cons link links inductionHypothesis =>
      rcases inductionHypothesis member with earlier | ⟨later, inside, same⟩
      · rcases List.mem_cons.mp earlier with rfl | kept
        · exact .inr ⟨link, List.mem_cons_self .., rfl⟩
        · exact .inl (mem_of_mem_climb kept)
      · exact .inr ⟨later, List.mem_cons_of_mem link inside, same⟩

theorem read_concat {bottom : Pending} {links : List Link}
    (stays : ∀ link ∈ links,
      precedence.mustClimb (precedence.rank bottom.operator) (some link.operator) = false)
    (pending : List Pending) (value : Expression) :
    read precedence (pending ++ [bottom]) value links =
      ((read precedence pending value links).1 ++ [bottom],
        (read precedence pending value links).2) := by
  induction links generalizing pending value with
  | nil => rfl
  | cons link links inductionHypothesis =>
      rw [read, read, climb_concat (stays link (List.mem_cons_self ..)), ← List.cons_append]
      exact inductionHypothesis (fun each member => stays each (List.mem_cons_of_mem link member))
        _ _

/-- Reading a chain from left to right gives its arrangement. -/
theorem close_read (precedence : Precedence) (first : Expression) (links : List Link) :
    close (read precedence [] first links).1 (read precedence [] first links).2 =
      Link.arrange precedence first links := by
  induction first, links using Link.pivotInduction precedence with
  | single first =>
      rw [Link.arrange_nil]
      rfl
  | split first before link after chosen isTop left right =>
      obtain ⟨takes, stays⟩ := isTop
      have climbed : climb precedence link.operator (read precedence [] first before).1
          (read precedence [] first before).2 = ([], Link.arrange precedence first before) := by
        rw [← left]
        apply climb_all
        intro each member
        rcases operator_of_mem_read member with absent | ⟨other, inside, same⟩
        · simp at absent
        · rw [same]
          exact takes other inside
      rw [read_append, read, climbed, ← List.nil_append [_], read_concat stays, close_concat,
        right, Link.arrange_append first before link after chosen]

end Pending

end GlslFormula
