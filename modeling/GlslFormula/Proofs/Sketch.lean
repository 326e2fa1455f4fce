import GlslFormula.Proofs.Outline

namespace GlslFormula

section Words

variable {Item : Type} {passes : Item → Bool} {first second rest others : List Item}
  {item other : Item}

/-- A row is parted at the first item that does not pass. -/
theorem parted_inj (passing : ∀ item ∈ first, passes item = true)
    (passingToo : ∀ item ∈ second, passes item = true) (stops : passes item = false)
    (stopsToo : passes other = false) (same : first ++ item :: rest = second ++ other :: others) :
    first = second ∧ item = other ∧ rest = others := by
  have parted := congrArg (List.takeWhile passes) same
  rw [List.takeWhile_append_of_pos passing, List.takeWhile_append_of_pos passingToo,
    List.takeWhile_cons_of_neg (by simp [stops]), List.takeWhile_cons_of_neg (by simp [stopsToo]),
    List.append_nil, List.append_nil] at parted
  subst parted
  exact ⟨rfl, List.cons.inj (List.append_cancel_left same)⟩

/-- A word that can stand between quotes on one line. -/
structure Quotable (word : String) : Prop where
  present : word ≠ ""
  unquoted : '"' ∉ word.toList
  unbroken : '\n' ∉ word.toList

/-- A quoted word is read up to its last quote. -/
theorem Quotable.inj {word read : String} {rest others : List Char} (quotable : Quotable word)
    (quotableToo : Quotable read)
    (same : word.toList ++ '"' :: rest = read.toList ++ '"' :: others) :
    word = read ∧ rest = others := by
  have passing {text : String} (quotable : Quotable text) :
      ∀ c ∈ text.toList, (c != '"') = true := by
    intro c member
    rw [bne_iff_ne]
    rintro rfl
    exact quotable.unquoted member
  obtain ⟨words, -, behind⟩ :=
    parted_inj (passing quotable) (passing quotableToo) (by simp) (by simp) same
  exact ⟨String.toList_inj.mp words, behind⟩

end Words

theorem NodeKind.name_injective : Function.Injective name := by
  intro first second same
  have found (kind : NodeKind) : ofName? kind.name = some kind := by cases kind <;> rfl
  exact Option.some.inj ((found first).symm.trans ((congrArg ofName? same).trans (found second)))

theorem NodeKind.unspaced_name (kind : NodeKind) : ' ' ∉ kind.name.toList := by
  cases kind <;> simp [name]

theorem NodeKind.unbroken_name (kind : NodeKind) : '\n' ∉ kind.name.toList := by
  cases kind <;> simp [name]

namespace Face

variable {face other : Face} {leaf otherLeaf : Bool}

/-- A builder gives a node a word and at most a rank. -/
structure Legible (face : Face) : Prop where
  word : Quotable face.text
  rank : face.attributes = [] ∨
    ∃ rank, face.attributes = [(precedenceAttribute, rank)] ∧ Quotable rank

/-- The attributes and the end of a tag. -/
def trailer (face : Face) (leaf : Bool) : List Char :=
  (String.join (face.attributes.map Tree.attributeText)).toList ++ (ending leaf).toList

theorem Legible.toList_tag (legible : face.Legible) (leaf : Bool) :
    (face.tag leaf).toList =
      '<' :: (face.kind.name.toList ++ ' ' ::
        ("str=\"".toList ++ (face.text.toList ++ '"' :: face.trailer leaf))) := by
  rw [tag, label, if_neg legible.word.present]
  simp [trailer]

theorem trailer_plain (plain : face.attributes = []) :
    face.trailer leaf = (ending leaf).toList := by
  rw [trailer, plain]
  rfl

theorem trailer_ranked {rank : String} (ranked : face.attributes = [(precedenceAttribute, rank)])
    (quotable : Quotable rank) :
    face.trailer leaf =
      " precedence=\"".toList ++ (rank.toList ++ '"' :: (ending leaf).toList) := by
  rw [trailer, ranked]
  simp [Tree.attributeText, quotable.present, precedenceAttribute]

theorem ending_inj (same : (ending leaf).toList = (ending otherLeaf).toList) :
    leaf = otherLeaf := by
  cases leaf <;> cases otherLeaf <;> simp [ending] at same <;> rfl

/-- The end of a tag tells the rank and whether there are children. -/
theorem Legible.trailer_inj (legible : face.Legible) (legibleToo : other.Legible)
    (same : face.trailer leaf = other.trailer otherLeaf) :
    face.attributes = other.attributes ∧ leaf = otherLeaf := by
  rcases legible.rank with plain | ⟨rank, ranked, quotable⟩
  · rcases legibleToo.rank with plainToo | ⟨otherRank, rankedToo, quotableToo⟩
    · rw [trailer_plain plain, trailer_plain plainToo] at same
      exact ⟨plain.trans plainToo.symm, ending_inj same⟩
    · rw [trailer_plain plain, trailer_ranked rankedToo quotableToo] at same
      cases leaf <;> simp [ending] at same
  · rcases legibleToo.rank with plainToo | ⟨otherRank, rankedToo, quotableToo⟩
    · rw [trailer_ranked ranked quotable, trailer_plain plainToo] at same
      cases otherLeaf <;> simp [ending] at same
    · rw [trailer_ranked ranked quotable, trailer_ranked rankedToo quotableToo] at same
      obtain ⟨rfl, ends⟩ := quotable.inj quotableToo (List.append_cancel_left same)
      exact ⟨ranked.trans rankedToo.symm, ending_inj ends⟩

/-- A tag can be read back. -/
theorem Legible.tag_inj (legible : face.Legible) (legibleToo : other.Legible)
    (same : face.tag leaf = other.tag otherLeaf) : face = other ∧ leaf = otherLeaf := by
  have shown := congrArg String.toList same
  rw [legible.toList_tag, legibleToo.toList_tag] at shown
  have passing (kind : NodeKind) : ∀ c ∈ kind.name.toList, (c != ' ') = true := by
    intro c member
    rw [bne_iff_ne]
    rintro rfl
    exact kind.unspaced_name member
  obtain ⟨names, -, behind⟩ := parted_inj (passing face.kind) (passing other.kind) (by simp)
    (by simp) (List.cons.inj shown).2
  obtain ⟨words, ends⟩ := legible.word.inj legibleToo.word (List.append_cancel_left behind)
  obtain ⟨attributes, leaves⟩ := legible.trailer_inj legibleToo ends
  have kinds := NodeKind.name_injective (String.toList_inj.mp names)
  obtain ⟨kind, text, entries⟩ := face
  obtain ⟨otherKind, otherText, otherEntries⟩ := other
  obtain rfl : kind = otherKind := kinds
  obtain rfl : text = otherText := words
  obtain rfl : entries = otherEntries := attributes
  exact ⟨rfl, leaves⟩

theorem Legible.unbroken_tag (legible : face.Legible) (leaf : Bool) :
    '\n' ∉ (face.tag leaf).toList := by
  have ending : '\n' ∉ (ending leaf).toList := by cases leaf <;> decide
  have ends : '\n' ∉ face.trailer leaf := by
    rcases legible.rank with plain | ⟨rank, ranked, quotable⟩
    · rw [trailer_plain plain]
      exact ending
    · rw [trailer_ranked ranked quotable]
      simp [quotable.unbroken, ending]
  rw [legible.toList_tag]
  simp [face.kind.unbroken_name, legible.word.unbroken, ends]

end Face

/-- An outline shows only this of a tree. -/
inductive Sketch where
  | node (face : Face) (below : List Sketch)

namespace Sketch

mutual

/-- A node without others below it is one tag. Any other node is its first tag, the lines below it
with three spaces before them, and its last tag. -/
def lines : Sketch → List String
  | .node face below =>
      if below.isEmpty then [face.tag true]
      else
        face.tag false ::
          ((linesAll below).map ("   " ++ ·) ++ ["</" ++ face.kind.name ++ ">"])

def linesAll : List Sketch → List String
  | [] => []
  | sketch :: rest => sketch.lines ++ linesAll rest

end

mutual

/-- Each face of the sketch is legible. -/
def Legible : Sketch → Prop
  | .node face below => face.Legible ∧ LegibleAll below

def LegibleAll : List Sketch → Prop
  | [] => True
  | sketch :: rest => sketch.Legible ∧ LegibleAll rest

end

theorem lines_ne_nil (sketch : Sketch) : sketch.lines ≠ [] := by
  obtain ⟨face, _ | ⟨first, rest⟩⟩ := sketch <;> simp [lines]

theorem map_indent_injective :
    Function.Injective (List.map fun line : String => "   " ++ line) := by
  apply List.map_injective_iff.mpr
  intro first second same
  simpa using same

/-- Lines with spaces before them are read up to the last tag. -/
theorem indented_inj {inner others rest behind : List String} {name other : String}
    (same : inner.map ("   " ++ ·) ++ ("</" ++ name) :: rest =
      others.map ("   " ++ ·) ++ ("</" ++ other) :: behind) :
    inner = others ∧ rest = behind := by
  have spaced (lines : List String) :
      ∀ line ∈ lines.map ("   " ++ ·), (line.toList.head? == some ' ') = true := by
    intro line member
    obtain ⟨text, -, rfl⟩ := List.mem_map.mp member
    simp
  have tagged (name : String) : (("</" ++ name).toList.head? == some ' ') = false := by simp
  obtain ⟨inside, -, outside⟩ :=
    parted_inj (spaced inner) (spaced others) (tagged name) (tagged other) same
  exact ⟨map_indent_injective inside, outside⟩

mutual

/-- Lines are read back in only one way, whatever stands behind them. -/
theorem lines_append_inj (sketch other : Sketch) (legible : sketch.Legible)
    (legibleToo : other.Legible) (rest others : List String)
    (same : sketch.lines ++ rest = other.lines ++ others) : sketch = other ∧ rest = others := by
  match sketch, other with
  | .node face [], .node otherFace [] =>
      obtain ⟨tags, behind⟩ := List.cons.inj same
      obtain ⟨rfl, -⟩ := legible.1.tag_inj legibleToo.1 tags
      exact ⟨rfl, behind⟩
  | .node face [], .node otherFace (first :: below) =>
      obtain ⟨tags, -⟩ := List.cons.inj same
      obtain ⟨-, differ⟩ := legible.1.tag_inj legibleToo.1 tags
      simp at differ
  | .node face (first :: below), .node otherFace [] =>
      obtain ⟨tags, -⟩ := List.cons.inj same
      obtain ⟨-, differ⟩ := legible.1.tag_inj legibleToo.1 tags
      simp at differ
  | .node face (first :: below), .node otherFace (second :: belowToo) =>
      obtain ⟨tags, inside⟩ := List.cons.inj same
      obtain ⟨rfl, -⟩ := legible.1.tag_inj legibleToo.1 tags
      simp only [List.append_eq, List.append_assoc, List.singleton_append, String.append_assoc]
        at inside
      -- No line below starts with a bracket, so the last tag is where the spaces end.
      obtain ⟨inner, behind⟩ := indented_inj inside
      rw [linesAll_inj (first :: below) (second :: belowToo) legible.2 legibleToo.2 inner]
      exact ⟨rfl, behind⟩

theorem linesAll_inj (sketches others : List Sketch) (legible : LegibleAll sketches)
    (legibleToo : LegibleAll others) (same : linesAll sketches = linesAll others) :
    sketches = others := by
  match sketches, others with
  | [], [] => rfl
  | [], other :: rest =>
      rw [linesAll, linesAll, eq_comm, List.append_eq_nil_iff] at same
      exact absurd same.1 other.lines_ne_nil
  | sketch :: rest, [] =>
      rw [linesAll, linesAll, List.append_eq_nil_iff] at same
      exact absurd same.1 sketch.lines_ne_nil
  | sketch :: rest, other :: others =>
      obtain ⟨rfl, behind⟩ :=
        lines_append_inj sketch other legible.1 legibleToo.1 (linesAll rest) (linesAll others) same
      rw [linesAll_inj rest others legible.2 legibleToo.2 behind]

end

mutual

theorem Legible.unbroken (sketch : Sketch) (legible : sketch.Legible) :
    ∀ line ∈ sketch.lines, '\n' ∉ line.toList := by
  match sketch with
  | .node face [] =>
      intro line member
      rw [List.mem_singleton.mp member]
      exact legible.1.unbroken_tag true
  | .node face (first :: rest) =>
      intro line member
      rcases List.mem_cons.mp member with rfl | later
      · exact legible.1.unbroken_tag false
      · rcases List.mem_append.mp later with inside | last
        · obtain ⟨text, inner, rfl⟩ := List.mem_map.mp inside
          have unbroken := LegibleAll.unbroken (first :: rest) legible.2 text inner
          simp [unbroken]
        · rw [List.mem_singleton.mp last]
          simp [NodeKind.unbroken_name]

theorem LegibleAll.unbroken (sketches : List Sketch) (legible : LegibleAll sketches) :
    ∀ line ∈ linesAll sketches, '\n' ∉ line.toList := by
  match sketches with
  | [] => simp [linesAll]
  | sketch :: rest =>
      intro line member
      rcases List.mem_append.mp member with first | later
      · exact Legible.unbroken sketch legible.1 line first
      · exact LegibleAll.unbroken rest legible.2 line later

end

/-- A root has no text, and the sketch is all that is below it. -/
def outlineLines (sketch : Sketch) : List String :=
  "<root>" :: (sketch.lines.map ("   " ++ ·) ++ ["</root>"])

def outline (sketch : Sketch) : String := "\n".intercalate sketch.outlineLines

/-- An outline is split at its line breaks. -/
theorem split_outline {sketch : Sketch} (legible : sketch.Legible) :
    sketch.outline.toList.splitOn '\n' = sketch.outlineLines.map String.toList := by
  have unbroken : ∀ line ∈ sketch.outlineLines, '\n' ∉ line.toList := by
    intro line member
    rw [outlineLines, List.mem_cons, List.mem_append, List.mem_map, List.mem_singleton] at member
    rcases member with rfl | ⟨inner, inside, rfl⟩ | rfl
    · decide
    · simpa using legible.unbroken sketch inner inside
    · decide
  rw [outline, String.toList_intercalate]
  apply List.splitOn_intercalate
  · simpa using unbroken
  · simp [outlineLines]

/-- An outline can be read back. -/
theorem outline_inj {sketch other : Sketch} (legible : sketch.Legible)
    (legibleToo : other.Legible) (same : sketch.outline = other.outline) : sketch = other := by
  have split := congrArg (fun text : String => text.toList.splitOn '\n') same
  simp only [split_outline legible, split_outline legibleToo] at split
  have lines : sketch.outlineLines = other.outlineLines :=
    List.map_injective_iff.mpr (fun _ _ => String.toList_injective) split
  have inside := map_indent_injective (List.append_cancel_right (List.cons.inj lines).2)
  exact (lines_append_inj sketch other legible legibleToo [] [] (congrArg (· ++ []) inside)).1

end Sketch

end GlslFormula
