import GlslFormula.Session.Completion
import Mathlib.Data.List.DropRight

namespace GlslFormula

theorem byteSize_append (first second : List Char) :
    byteSize (first ++ second) = byteSize first + byteSize second := by
  induction first with
  | nil => rw [List.nil_append, byteSize, Nat.zero_add]
  | cons c first inductionHypothesis =>
      rw [List.cons_append, byteSize, byteSize, inductionHypothesis, Nat.add_assoc]

theorem byteSize_toList (text : String) : byteSize text.toList = text.utf8ByteSize := by
  obtain ⟨characters, rfl⟩ := text.exists_eq_ofList
  induction characters with
  | nil => rfl
  | cons c characters inductionHypothesis =>
      rw [String.toList_ofList] at inductionHypothesis ⊢
      rw [String.ofList_cons, String.utf8ByteSize_append, byteSize, inductionHypothesis]
      simp

namespace Completion

/-- The characters before a position are all that is before it. -/
theorem headAt?_append (head rest : List Char) :
    headAt? (head ++ rest) (byteSize head) = some head := by
  induction head with
  | nil => rw [byteSize, headAt?]
  | cons c head inductionHypothesis =>
      obtain ⟨width, same⟩ := Nat.exists_eq_add_one.mpr c.utf8Size_pos
      have behind : c.utf8Size + byteSize head = width + byteSize head + 1 := by omega
      have left : width + byteSize head + 1 - c.utf8Size = byteSize head := by omega
      rw [List.cons_append, byteSize, behind, headAt?, if_pos (by omega), left,
        inductionHypothesis, Option.map_some]

theorem append_of_headAt? {text head : List Char} {position : Nat}
    (found : headAt? text position = some head) :
    ∃ rest, text = head ++ rest ∧ byteSize head = position := by
  induction text, position using headAt?.induct generalizing head with
  | case1 text =>
      rw [headAt?, Option.some.injEq] at found
      subst found
      exact ⟨text, rfl, rfl⟩
  | case2 position => simp [headAt?] at found
  | case3 c text position fits inductionHypothesis =>
      rw [headAt?, if_pos fits, Option.map_eq_some_iff] at found
      obtain ⟨inner, foundInner, rfl⟩ := found
      obtain ⟨rest, rfl, size⟩ := inductionHypothesis foundInner
      exact ⟨rest, rfl, by rw [byteSize, size]; omega⟩
  | case4 c text position wide => simp [headAt?, wide] at found

/-- A position with characters before it is a character boundary. -/
theorem isValid_iff (line : String) (position : Nat) :
    String.Pos.Raw.IsValid line ⟨position⟩ ↔
      ∃ head rest, line.toList = head ++ rest ∧ byteSize head = position := by
  rw [String.Pos.Raw.isValid_iff_exists_append]
  constructor
  · rintro ⟨first, second, rfl, place⟩
    refine ⟨first.toList, second.toList, String.toList_append, ?_⟩
    rw [byteSize_toList]
    exact (congrArg String.Pos.Raw.byteIdx place).symm
  · rintro ⟨head, rest, same, rfl⟩
    refine ⟨String.ofList head, String.ofList rest, ?_, ?_⟩
    · rw [← String.ofList_append, ← same, String.ofList_toList]
    · rw [String.Pos.Raw.ext_iff, String.byteIdx_rawEndPos, ← byteSize_toList,
        String.toList_ofList]

/-- The word ends at the position and goes back as far as its characters do. -/
structure Cursor (line : String) (position : Nat) (before word after : List Char) : Prop where
  whole : line.toList = before ++ word ++ after
  place : byteSize (before ++ word) = position
  isWord : ∀ c ∈ word, isWordChar c = true
  stops : ∀ c, before.getLast? = some c → isWordChar c = false

/-- No character of several bytes stands directly before the word. -/
def Narrow (before : List Char) : Prop := ∀ c, before.getLast? = some c → c.utf8Size = 1

theorem beforeWord_append_wordOf (head : List Char) : beforeWord head ++ wordOf head = head := by
  rw [beforeWord, wordOf, ← List.reverse_append, List.takeWhile_append_dropWhile,
    List.reverse_reverse]

theorem isWordChar_of_mem_wordOf {head : List Char} {c : Char} (member : c ∈ wordOf head) :
    isWordChar c = true := List.mem_rtakeWhile_imp member

theorem isWordChar_of_beforeWord {head : List Char} {c : Char}
    (last : (beforeWord head).getLast? = some c) : isWordChar c = false := by
  obtain ⟨some, rfl⟩ := List.mem_getLast?_eq_getLast last
  exact Bool.eq_false_iff.mpr (List.rdropWhile_last_not isWordChar head some)

/-- Each boundary is the place of a cursor. -/
theorem cursor_of_isValid {line : String} {position : Nat}
    (boundary : String.Pos.Raw.IsValid line ⟨position⟩) :
    ∃ before word after, Cursor line position before word after := by
  obtain ⟨head, rest, same, size⟩ := (isValid_iff line position).mp boundary
  have parts := beforeWord_append_wordOf head
  exact ⟨beforeWord head, wordOf head, rest, by rw [parts, same], by rw [parts, size],
    fun _ => isWordChar_of_mem_wordOf, fun _ => isWordChar_of_beforeWord⟩

namespace Cursor

variable {line : String} {position : Nat} {before word after : List Char}

theorem wordOf_eq (cursor : Cursor line position before word after) :
    wordOf (before ++ word) = word := by
  have inWord : ∀ c ∈ word.reverse, isWordChar c = true :=
    fun c member => cursor.isWord c (List.mem_reverse.mp member)
  have ends : before.reverse.takeWhile isWordChar = [] := by
    cases same : before.reverse with
    | nil => rfl
    | cons c rest =>
        have last : before.getLast? = some c := by rw [← List.head?_reverse, same]; rfl
        exact List.takeWhile_cons_of_neg (Bool.eq_false_iff.mp (cursor.stops c last))
  rw [wordOf, List.reverse_append, List.takeWhile_append_of_pos inWord, ends, List.append_nil,
    List.reverse_reverse]

theorem beforeWord_eq (cursor : Cursor line position before word after) :
    beforeWord (before ++ word) = before := by
  have parts := beforeWord_append_wordOf (before ++ word)
  rw [cursor.wordOf_eq] at parts
  exact List.append_cancel_right parts

theorem headAt?_eq (cursor : Cursor line position before word after) :
    headAt? line.toList position = some (before ++ word) := by
  rw [cursor.whole, ← cursor.place, headAt?_append]

/-- A position has one cursor at most. -/
theorem unique {otherBefore otherWord otherAfter : List Char}
    (cursor : Cursor line position before word after)
    (other : Cursor line position otherBefore otherWord otherAfter) :
    otherBefore = before ∧ otherWord = word := by
  have same : otherBefore ++ otherWord = before ++ word :=
    Option.some.inj (other.headAt?_eq.symm.trans cursor.headAt?_eq)
  constructor
  · exact other.beforeWord_eq.symm.trans ((congrArg beforeWord same).trans cursor.beforeWord_eq)
  · exact other.wordOf_eq.symm.trans ((congrArg wordOf same).trans cursor.wordOf_eq)

/-- The cursor decides the completion. -/
theorem complete_eq (cursor : Cursor line position before word after) :
    complete line position =
      (start? before).map fun start => ⟨start, candidatesFor word⟩ := by
  rw [complete, cursor.headAt?_eq]
  simp only [Option.bind_eq_bind, Option.bind_some, cursor.beforeWord_eq, cursor.wordOf_eq]
  cases start? before <;> rfl

end Cursor

theorem start?_of_narrow {before : List Char} (narrow : Narrow before) :
    start? before = some (byteSize before) := by
  cases last : before.getLast? with
  | none => rw [start?, last, List.getLast?_eq_none_iff.mp last, byteSize]
  | some c =>
      rw [start?, last]
      exact if_pos (narrow c last)

theorem narrow_of_start? {before : List Char} {start : Nat} (found : start? before = some start) :
    Narrow before := by
  intro c last
  rw [start?, last] at found
  by_contra wide
  cases found.symm.trans (if_neg wide)

/-- The start is the place where the word before the position starts. -/
def StartsWord (line : String) (position start : Nat) : Prop :=
  ∃ before word after, Cursor line position before word after ∧ byteSize before = start

theorem isValid_of_complete {line : String} {position : Nat} {completion : Completion}
    (completed : complete line position = some completion) :
    String.Pos.Raw.IsValid line ⟨position⟩ := by
  rw [complete, Option.bind_eq_bind, Option.bind_eq_some_iff] at completed
  obtain ⟨head, found, -⟩ := completed
  obtain ⟨rest, same, size⟩ := append_of_headAt? found
  exact (isValid_iff line position).mpr ⟨head, rest, same, size⟩

/-- A completion belongs to a cursor. -/
theorem cursor_of_complete {line : String} {position : Nat} {completion : Completion}
    (completed : complete line position = some completion) :
    ∃ before word after, Cursor line position before word after ∧ Narrow before ∧
      completion = ⟨byteSize before, candidatesFor word⟩ := by
  obtain ⟨before, word, after, cursor⟩ := cursor_of_isValid (isValid_of_complete completed)
  rw [cursor.complete_eq, Option.map_eq_some_iff] at completed
  obtain ⟨start, found, rfl⟩ := completed
  have narrow := narrow_of_start? found
  rw [start?_of_narrow narrow, Option.some.injEq] at found
  exact ⟨before, word, after, cursor, narrow, by rw [found]⟩

/-- There is a completion at each character boundary whose word has no character of several bytes
directly before it. It starts where that word does. -/
theorem complete_isSome_iff (line : String) (position : Nat) :
    ((complete line position).isSome = true ↔ String.Pos.Raw.IsValid line ⟨position⟩ ∧
      ∀ before word after, Cursor line position before word after → Narrow before) ∧
    ∀ completion, complete line position = some completion →
      String.Pos.Raw.IsValid line ⟨completion.start⟩ ∧ completion.start ≤ position ∧
        StartsWord line position completion.start := by
  constructor
  case left =>
    constructor
    · intro completed
      obtain ⟨completion, completed⟩ := Option.isSome_iff_exists.mp completed
      refine ⟨isValid_of_complete completed, fun before word after cursor => ?_⟩
      rw [cursor.complete_eq, Option.map_eq_some_iff] at completed
      obtain ⟨start, found, -⟩ := completed
      exact narrow_of_start? found
    · rintro ⟨boundary, narrow⟩
      obtain ⟨before, word, after, cursor⟩ := cursor_of_isValid boundary
      rw [cursor.complete_eq, start?_of_narrow (narrow before word after cursor)]
      rfl
  case right =>
    intro completion completed
    obtain ⟨before, word, after, cursor, -, rfl⟩ := cursor_of_complete completed
    refine ⟨(isValid_iff ..).mpr ⟨before, word ++ after, ?_, rfl⟩, ?_, _, _, _, cursor, rfl⟩
    · rw [cursor.whole, List.append_assoc]
    · rw [← cursor.place, byteSize_append]
      exact Nat.le_add_right ..

/-- The letter before the word takes two bytes, and the start would be inside it. -/
theorem complete_inside_character :
    String.Pos.Raw.IsValid "és" ⟨3⟩ ∧ complete "és" 3 = none := by
  constructor
  · exact (isValid_iff "és" 3).mpr ⟨['é', 's'], [], rfl, rfl⟩
  · decide

end Completion

end GlslFormula
