import GlslFormula.Proofs.Numeral
import GlslFormula.Proofs.Quotation
import GlslFormula.Toml.Document

namespace GlslFormula.Toml

/-- The value is read back from the text that the line ends with. -/
structure Denotes (written : List Char) (value : Value) : Prop where
  read : ∀ rest, readValue (written ++ '\n' :: rest) = some (value, '\n' :: rest)
  unspaced : ∀ c, written.head? = some c → isSpacing c = false

theorem exists_writeQuoted (text : List Char) :
    ∃ quote more, writeQuoted text = quote :: more ∧ (quote = '"' ∨ quote = '\'') := by
  have opened (quote : Char) (quotes : List Char) :
      ∃ more, longOpening (quote :: quotes) text = quote :: more := by
    rw [longOpening]
    split <;> exact ⟨_, rfl⟩
  obtain ⟨double, sameDouble⟩ := opened '"' ['"', '"']
  obtain ⟨single, sameSingle⟩ := opened '\'' ['\'', '\'']
  unfold writeQuoted
  simp only [sameDouble, sameSingle]
  repeat' split
  case isFalse.isTrue | isFalse.isFalse.isFalse.isTrue => exact ⟨'\'', _, rfl, .inr rfl⟩
  all_goals exact ⟨'"', _, rfl, .inl rfl⟩

theorem denotes_string (text : String) : Denotes (writeQuoted text.toList) (.string text) := by
  obtain ⟨quote, more, same, kind⟩ := exists_writeQuoted text.toList
  constructor
  case read =>
    intro rest
    have found : readQuoted (writeQuoted text.toList ++ '\n' :: rest) =
        some (text.toList, '\n' :: rest) :=
      readQuoted_writeQuoted text.toList (by simp) (by simp)
    rw [same, List.cons_append] at found ⊢
    have textual : readValue (quote :: (more ++ '\n' :: rest)) =
        readText (quote :: (more ++ '\n' :: rest)) := by
      rcases kind with rfl | rfl <;> rfl
    rw [textual, readText, found, Option.map_some, String.ofList_toList]
  case unspaced =>
    intro c head
    rw [same, List.head?_cons, Option.some.injEq] at head
    rcases kind with rfl | rfl <;> rw [← head] <;> rfl

theorem denotes_true : Denotes "true".toList (.boolean true) :=
  ⟨fun _ => rfl, by simp [isSpacing]⟩

theorem denotes_false : Denotes "false".toList (.boolean false) :=
  ⟨fun _ => rfl, by simp [isSpacing]⟩

theorem readValueWith_digit {inner : Option (Reader Value)} {d : Char} {text : List Char}
    (isDigit : d.isDigit = true) : readValueWith inner (d :: text) = readNumber (d :: text) := by
  unfold readValueWith
  split
  case h_7 => rfl
  all_goals
    rename_i same
    obtain ⟨rfl, -⟩ := List.cons.inj same
    cases isDigit

theorem denotes_size {size : Nat} (fits : size < signedCount) :
    Denotes (toString size).toList (.integer size) := by
  have digits : ∀ c ∈ (toString size).toList, c.isDigit = true := isDigits_toString size
  constructor
  case read =>
    intro rest
    have found := readNumber_toString fits rest
    cases same : (toString size).toList with
    | nil =>
        rw [Nat.toString_eq_repr, Nat.toList_repr] at same
        exact absurd same Nat.toDigits_ne_nil
    | cons d more =>
        have isDigit : d.isDigit = true := digits d (by rw [same]; exact List.mem_cons_self)
        rw [same, List.cons_append] at found
        rw [List.cons_append, ← found]
        exact readValueWith_digit isDigit
  case unspaced =>
    intro c head
    have isDigit := digits c (List.mem_of_head? head)
    rw [isSpacing, Bool.or_eq_false_iff, beq_eq_false_iff_ne, beq_eq_false_iff_ne]
    constructor <;> rintro rfl <;> cases isDigit

/-- The reader finds these statements when it has a round for each character. -/
def Reads (text : List Char) (statements : List Statement) : Prop :=
  ∀ fuel, text.length < fuel → readStatements fuel text = some statements

theorem reads_nil : Reads [] [] := by
  intro fuel enough
  obtain ⟨fuel, rfl⟩ := Nat.exists_eq_add_one.mpr enough
  simp [readStatements, skipSpacing]

theorem Reads.blankLine {text : List Char} {statements : List Statement}
    (reads : Reads text statements) : Reads ('\n' :: text) statements := by
  intro fuel enough
  obtain ⟨fuel, rfl⟩ := Nat.exists_eq_add_one.mpr (Nat.zero_lt_of_lt enough)
  rw [List.length_cons] at enough
  simp [readStatements, skipSpacing, isSpacing, reads fuel (by omega)]

theorem endLine_break (rest : List Char) : endLine ('\n' :: rest) = some rest := by
  simp [endLine, skipSpacing, isSpacing]

/-- A statement fills its line. -/
theorem Reads.statement {first : Char} {more tail : List Char} {statement : Statement}
    {statements : List Statement} (apart : first ∉ [' ', '\t', '#', '\n', '\r'])
    (read : readStatement (first :: more) = some (statement, '\n' :: tail))
    (shorter : tail.length ≤ more.length) (reads : Reads tail statements) :
    Reads (first :: more) (statement :: statements) := by
  intro fuel enough
  obtain ⟨fuel, rfl⟩ := Nat.exists_eq_add_one.mpr (Nat.zero_lt_of_lt enough)
  rw [List.length_cons] at enough
  simp only [List.mem_cons, List.not_mem_nil, or_false, not_or] at apart
  obtain ⟨notSpace, notTab, notComment, notBreak, notReturn⟩ := apart
  have unspaced : skipSpacing (first :: more) = first :: more := by
    simp [skipSpacing, isSpacing, notSpace, notTab]
  rw [readStatements, unspaced]
  split
  case h_1 same => cases same
  case h_2 same => exact absurd (List.cons.inj same).1 notComment
  case h_3 same => exact absurd (List.cons.inj same).1 notBreak
  case h_4 same => exact absurd (List.cons.inj same).1 notReturn
  case h_5 => simp [read, endLine_break, reads fuel (by omega)]

/-- A key without quotes. -/
def IsBareKey (key : List Char) : Prop := key ≠ [] ∧ ∀ c ∈ key, isBareKeyChar c = true

instance : DecidablePred IsBareKey := fun key =>
  decidable_of_iff (key ≠ [] ∧ key.all isBareKeyChar = true) (by rw [IsBareKey, List.all_eq_true])

/-- None of these characters is in a bare key. -/
theorem IsBareKey.head {c : Char} {key : List Char} (isKey : IsBareKey (c :: key)) :
    c ∉ [' ', '\t', '#', '\n', '\r', '"', '\'', '['] := by
  have bare := isKey.2 c List.mem_cons_self
  intro member
  have others : [' ', '\t', '#', '\n', '\r', '"', '\'', '['].all fun d => !isBareKeyChar d := by
    decide
  have refused := List.all_eq_true.mp others c member
  rw [bare] at refused
  cases refused

theorem readKeyPart_bare {key tail : List Char} (isKey : IsBareKey key)
    (ends : ∀ c, tail.head? = some c → isBareKeyChar c = false) :
    readKeyPart (skipSpacing (key ++ tail)) = some (key, tail) := by
  have stops : tail.takeWhile isBareKeyChar = [] ∧ tail.dropWhile isBareKeyChar = tail := by
    cases tail with
    | nil => exact ⟨rfl, rfl⟩
    | cons c tail =>
        have notKey := Bool.eq_false_iff.mp (ends c rfl)
        exact ⟨List.takeWhile_cons_of_neg notKey, List.dropWhile_cons_of_neg notKey⟩
  have bare : readBareKey (key ++ tail) = some (key, tail) := by
    rw [readBareKey, List.takeWhile_append_of_pos isKey.2, List.dropWhile_append_of_pos isKey.2,
      stops.1, stops.2, List.append_nil]
    simp [isKey.1]
  obtain ⟨c, more, rfl⟩ := List.exists_cons_of_ne_nil isKey.1
  have apart := isKey.head
  simp only [List.mem_cons, List.not_mem_nil, or_false, not_or] at apart
  obtain ⟨notSpace, notTab, -, -, -, notDouble, notSingle, -⟩ := apart
  have unspaced : skipSpacing (c :: more ++ tail) = c :: more ++ tail := by
    simp [skipSpacing, isSpacing, notSpace, notTab]
  rw [unspaced, ← bare]
  unfold readKeyPart
  split
  case h_1 same => exact absurd (List.cons.inj same).1 notDouble
  case h_2 same => exact absurd (List.cons.inj same).1 notSingle
  case h_3 => rfl

/-- A bare key ends at the first other character, and blanks may follow. -/
theorem readKey_bare {name : String} {tail : List Char} (isKey : IsBareKey name.toList)
    (ends : ∀ c, tail.head? = some c → isBareKeyChar c = false)
    (undotted : (skipSpacing tail).head? ≠ some '.') :
    readKey (name.toList ++ tail) = some ([name], skipSpacing tail) := by
  have shown : readKey = readKeyParts (depthLimit - 2 + 1) := rfl
  rw [shown, readKeyParts, readKeyPart_bare isKey ends]
  simp only [Option.bind_eq_bind, Option.bind_some, String.ofList_toList]
  split
  case h_1 more same =>
    rw [same] at undotted
    exact absurd rfl undotted
  case h_2 => rfl

theorem Reads.header {name : String} {text : List Char} {statements : List Statement}
    (isKey : IsBareKey name.toList) (reads : Reads text statements) :
    Reads ('[' :: (name.toList ++ ']' :: '\n' :: text)) (.header [name] :: statements) := by
  have spaced : skipSpacing (']' :: '\n' :: text) = ']' :: '\n' :: text := by
    simp [skipSpacing, isSpacing]
  have key : readKey (name.toList ++ ']' :: '\n' :: text) = some ([name], ']' :: '\n' :: text) := by
    rw [readKey_bare isKey (by simp [isBareKeyChar]) (by simp [spaced]), spaced]
  refine Reads.statement (by decide) ?_ (by simp; omega) reads
  obtain ⟨c, more, same⟩ := List.exists_cons_of_ne_nil isKey.1
  have notBracket : c ≠ '[' := by
    rintro rfl
    rw [same] at isKey
    exact isKey.head (by simp)
  rw [same] at key ⊢
  rw [List.cons_append] at key ⊢
  rw [readStatement, readHeader]
  · simp [key]
  · intro rest other
    exact notBracket (List.cons.inj other).1

theorem Reads.assign {name : String} {written text : List Char} {value : Value}
    {statements : List Statement} (isKey : IsBareKey name.toList)
    (denotes : Denotes written value) (reads : Reads text statements) :
    Reads (name.toList ++ ' ' :: '=' :: ' ' :: (written ++ '\n' :: text))
      (.assign [name] value :: statements) := by
  have key : readKey (name.toList ++ ' ' :: '=' :: ' ' :: (written ++ '\n' :: text)) =
      some ([name], '=' :: ' ' :: (written ++ '\n' :: text)) := by
    rw [readKey_bare isKey (by simp [isBareKeyChar]) (by simp [skipSpacing, isSpacing])]
    simp [skipSpacing, isSpacing]
  have unspaced : skipSpacing (' ' :: (written ++ '\n' :: text)) = written ++ '\n' :: text := by
    cases written with
    | nil => simp [skipSpacing, isSpacing]
    | cons c more =>
        have unspaced := denotes.unspaced c rfl
        rw [List.cons_append, skipSpacing, List.dropWhile_cons_of_pos (by rfl),
          List.dropWhile_cons_of_neg (Bool.eq_false_iff.mp unspaced)]
  have pair : readPair readValue (name.toList ++ ' ' :: '=' :: ' ' :: (written ++ '\n' :: text)) =
      some (([name], value), '\n' :: text) := by
    simp [readPair, key, unspaced, denotes.read]
  obtain ⟨c, more, same⟩ := List.exists_cons_of_ne_nil isKey.1
  have apart : c ∉ [' ', '\t', '#', '\n', '\r', '"', '\'', '['] := by
    rw [same] at isKey
    exact isKey.head
  rw [same, List.cons_append] at pair ⊢
  simp only [List.mem_cons, List.not_mem_nil, or_false, not_or] at apart
  refine Reads.statement (by simp [apart]) ?_ (by simp; omega) reads
  rw [readStatement]
  · simp [readAssignment, pair]
  · intro rest other
    exact apart.2.2.2.2.2.2.2 (List.cons.inj other).1

/-- A section has a name, and its fields are in order. -/
structure Section where
  name : String
  fields : Entries

namespace Section

/-- A section is written as a header with a line for each field behind it. -/
def statements (part : Section) : List Statement :=
  .header [part.name] :: part.fields.map fun field => .assign [field.1] field.2

/-- A section becomes a table with a header of its own. -/
def table (part : Section) : String × Value := (part.name, .table .explicit part.fields)

/-- No field is set twice. -/
def Distinct (part : Section) : Prop := (part.fields.map Prod.fst).Nodup

end Section

theorem lookup_eq_none {key : String} {entries : Entries}
    (free : key ∉ entries.map Prod.fst) : entries.lookup key = none := by
  rw [List.lookup_eq_none_iff]
  intro entry member
  rw [bne_iff_ne]
  rintro rfl
  exact free (List.mem_map_of_mem member)

section Assembling

variable {assembly : Assembly} {closed : Entries}

theorem add_assign {key : String} (value : Value) (free : key ∉ assembly.current.map Prod.fst) :
    assembly.add (.assign [key] value) =
      some { assembly with current := assembly.current ++ [(key, value)] } := by
  simp [Assembly.add, setDotted, Descent.change, setNew, lookup_eq_none free]

theorem add_fields (assembly : Assembly) {fields : Entries}
    (distinct : ((assembly.current ++ fields).map Prod.fst).Nodup) :
    (fields.map fun field => Statement.assign [field.1] field.2).foldlM Assembly.add assembly =
      some { assembly with current := assembly.current ++ fields } := by
  induction fields generalizing assembly with
  | nil => simp
  | cons field fields inductionHypothesis =>
      have free : field.1 ∉ assembly.current.map Prod.fst := by
        rw [List.map_append, List.map_cons] at distinct
        have apart := (List.nodup_append.mp distinct).2.2
        exact fun member => apart _ member _ List.mem_cons_self rfl
      rw [List.append_cons] at distinct
      rw [List.map_cons, List.foldlM_cons, add_assign field.2 free, Option.bind_eq_bind,
        Option.bind_some, inductionHypothesis _ distinct]
      simp

/-- A header closes the section before it. -/
theorem add_header {name : String} (closes : assembly.close = some closed)
    (free : name ∉ closed.map Prod.fst) :
    assembly.add (.header [name]) = some { root := closed, path := [name] } := by
  simp [Assembly.add, Assembly.openSection, closes, splitPath, Descent.change, takeSection,
    lookup_eq_none free]

theorem close_section {part : Section} (free : part.name ∉ closed.map Prod.fst) :
    Assembly.close { root := closed, path := [part.name], current := part.fields } =
      some (closed ++ [part.table]) := by
  simp [Assembly.close, splitPath, Descent.change, setNew, lookup_eq_none free, Section.table]

/-- A section is opened by its header, and its fields are added. -/
theorem add_section {part : Section} (closes : assembly.close = some closed)
    (free : part.name ∉ closed.map Prod.fst) (distinct : part.Distinct) :
    part.statements.foldlM Assembly.add assembly =
      some { root := closed, path := [part.name], current := part.fields } := by
  rw [Section.statements, List.foldlM_cons, add_header closes free, Option.bind_eq_bind,
    Option.bind_some, add_fields { root := closed, path := [part.name] } distinct]
  rfl

theorem add_sections {parts : List Section} (closes : assembly.close = some closed)
    (distinct : (closed.map Prod.fst ++ parts.map Section.name).Nodup)
    (fields : ∀ part ∈ parts, part.Distinct) :
    ((parts.flatMap Section.statements).foldlM Assembly.add assembly).bind Assembly.close =
      some (closed ++ parts.map Section.table) := by
  induction parts generalizing assembly closed with
  | nil => simp [closes]
  | cons part parts inductionHypothesis =>
      rw [List.forall_mem_cons] at fields
      have free : part.name ∉ closed.map Prod.fst := fun member =>
        (List.nodup_append.mp distinct).2.2 _ member _ List.mem_cons_self rfl
      have others : ((closed ++ [part.table]).map Prod.fst ++ parts.map Section.name).Nodup := by
        rw [List.map_append, List.append_assoc]
        exact distinct
      rw [List.flatMap_cons, List.foldlM_append, add_section closes free fields.1,
        Option.bind_eq_bind, Option.bind_some,
        inductionHypothesis (close_section free) others fields.2, List.map_cons, List.append_assoc]
      rfl

end Assembling

/-- The sections of a document are its tables. -/
theorem readDocument_sections {text : String} {parts : List Section}
    (reads : Reads text.toList (parts.flatMap Section.statements))
    (unmarked : text.toList.head? ≠ some '\uFEFF')
    (distinct : (parts.map Section.name).Nodup) (fields : ∀ part ∈ parts, part.Distinct) :
    readDocument text = some (parts.map Section.table) := by
  have start : dropMark text.toList = text.toList := by
    unfold dropMark
    split
    case h_1 same =>
      rw [same] at unmarked
      exact absurd rfl unmarked
    case h_2 => rfl
  have empty : Assembly.close {} = some [] := rfl
  have whole := add_sections empty distinct fields
  rw [List.nil_append] at whole
  rw [readDocument, start]
  simp only [reads _ (Nat.lt_succ_self _), Option.bind_eq_bind, Option.bind_some]
  exact whole

end GlslFormula.Toml
