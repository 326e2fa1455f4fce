import GlslFormula.Toml.Number

namespace GlslFormula.Toml

/-- A reader returns what it read and the text after it. -/
abbrev Reader (Result : Type) := List Char → Option (Result × List Char)

def skipSpacing (text : List Char) : List Char := text.dropWhile isSpacing

/-- A comment holds no control character other than the tab. -/
def isCommentChar (c : Char) : Bool := !isControl c

/-- Blanks, line breaks and comments are skipped. Each comment must end with its line. -/
def skipFiller : (inComment : Bool) → List Char → Option (List Char)
  | false, [] => some []
  | true, [] => none
  | _, '\n' :: rest => skipFiller false rest
  | _, '\r' :: '\n' :: rest => skipFiller false rest
  | true, c :: rest => if isCommentChar c then skipFiller true rest else none
  | false, '#' :: rest => skipFiller true rest
  | false, c :: rest => if isSpacing c then skipFiller false rest else some (c :: rest)

def isBareKeyChar (c : Char) : Bool := c.isAlphanum || c == '-' || c == '_'

def readBareKey (text : List Char) : Option (List Char × List Char) :=
  let key := text.takeWhile isBareKeyChar
  if key.isEmpty then none else some (key, text.dropWhile isBareKeyChar)

def readKeyPart (text : List Char) : Option (List Char × List Char) :=
  match text with
  | '"' :: _ => readShort text
  | '\'' :: _ => readShort text
  | _ => readBareKey text

/-- The parts of a dotted key, at most `limit` of them. -/
def readKeyParts : (limit : Nat) → Reader (List String)
  | 0, _ => none
  | limit + 1, text => do
      let (part, rest) ← readKeyPart (skipSpacing text)
      match skipSpacing rest with
      | '.' :: more =>
          let (parts, final) ← readKeyParts limit more
          return (String.ofList part :: parts, final)
      | final => return ([String.ofList part], final)

/-- Keys have fewer parts than this, and values nest less deeply. -/
def depthLimit : Nat := 80

def readKey : Reader (List String) := readKeyParts (depthLimit - 1)

/-- A descent follows a dotted path. It creates missing tables in one form and enters existing
tables of some forms. -/
structure Descent where
  created : TableForm
  enters : TableForm → Bool

/-- The change happens in the table at the end of the path. A table array stands for its latest
element. -/
def Descent.change {Result : Type} (descent : Descent)
    (edit : TableForm → Entries → Option (Result × Entries)) :
    (path : List String) → TableForm → Entries → Option (Result × Entries)
  | [], form, entries => edit form entries
  | key :: path, _, entries =>
      match entries.lookup key with
      | none => do
          let (result, inner) ← descent.change edit path descent.created []
          return (result, entries ++ [(key, .table descent.created inner)])
      | some (.table form inner) =>
          if descent.enters form then do
            let (result, changed) ← descent.change edit path form inner
            return (result, Entries.replace key (.table form changed) entries)
          else none
      | some (.tables (latest :: older)) => do
          let (result, changed) ← descent.change edit path .explicit latest
          return (result, Entries.replace key (.tables (changed :: older)) entries)
      | some _ => none

/-- A new key goes last. A key cannot be set twice. -/
def setNew (key : String) (value : Value) (entries : Entries) : Option (Unit × Entries) :=
  match entries.lookup key with
  | none => some ((), entries ++ [(key, value)])
  | some _ => none

/-- The path of a dotted key leads to a table that only dotted keys made. -/
def setDotted (descent : Descent) (keys : List String) (value : Value) (form : TableForm)
    (entries : Entries) : Option Entries :=
  match keys.reverse with
  | [] => none
  | key :: path =>
      (descent.change (fun reached inner =>
        if path.isEmpty || reached == descent.created then setNew key value inner else none)
        path.reverse form entries).map Prod.snd

/-- Keys of an inline table extend only tables that dotted keys of the same table made. -/
def inlineDescent : Descent := ⟨.inlineDotted, fun form => form == .inlineDotted⟩

/-- The pairs of an inline table make one closed table. -/
def inlineTable (pairs : List (List String × Value)) : Option Value :=
  (pairs.foldlM (fun entries pair => setDotted inlineDescent pair.1 pair.2 .inline entries)
    ([] : Entries)).map (.table .inline)

/-- The items after an opening bracket. A comma may follow the last item. -/
def readItems (value : Reader Value) : (fuel : Nat) → Reader (List Value)
  | 0, _ => none
  | fuel + 1, text => do
      match ← skipFiller false text with
      | ']' :: rest => return ([], rest)
      | start =>
          let (item, afterItem) ← value start
          match ← skipFiller false afterItem with
          | ']' :: rest => return ([item], rest)
          | ',' :: more =>
              let (items, rest) ← readItems value fuel more
              return (item :: items, rest)
          | _ => none

/-- A key, an equals sign and a value. -/
def readPair (value : Reader Value) : Reader (List String × Value) := fun text => do
  let (keys, afterKeys) ← readKey text
  match afterKeys with
  | '=' :: afterEquals =>
      let (item, rest) ← value (skipSpacing afterEquals)
      return ((keys, item), rest)
  | _ => none

/-- The pairs of an inline table. No comma may follow the last pair. -/
def readPairs (value : Reader Value) : (fuel : Nat) → Reader (List (List String × Value))
  | 0, _ => none
  | fuel + 1, text => do
      let (pair, afterPair) ← readPair value text
      match skipSpacing afterPair with
      | '}' :: rest => return ([pair], rest)
      | ',' :: more =>
          let (pairs, rest) ← readPairs value fuel more
          return (pair :: pairs, rest)
      | _ => none

def readInlineTable (value : Reader Value) (text : List Char) : Option (Value × List Char) :=
  match skipSpacing text with
  | '}' :: rest => some (.table .inline [], rest)
  | start => do
      let (pairs, rest) ← readPairs value start.length start
      return (← inlineTable pairs, rest)

def readText (text : List Char) : Option (Value × List Char) :=
  (readQuoted text).map fun parts => (.string (String.ofList parts.1), parts.2)

/-- Arrays and inline tables hold values of the given reader. Without a reader they nest too
deeply. -/
def readValueWith (inner : Option (Reader Value)) (text : List Char) :
    Option (Value × List Char) :=
  match text with
  | '"' :: _ => readText text
  | '\'' :: _ => readText text
  | '[' :: rest => do
      let (items, final) ← readItems (← inner) text.length rest
      return (.array items, final)
  | '{' :: rest => do readInlineTable (← inner) rest
  | 't' :: 'r' :: 'u' :: 'e' :: rest => some (.boolean true, rest)
  | 'f' :: 'a' :: 'l' :: 's' :: 'e' :: rest => some (.boolean false, rest)
  | _ => readNumber text

def readNested : (depth : Nat) → Reader Value
  | 0 => readValueWith none
  | depth + 1 => readValueWith (some (readNested depth))

def readValue : Reader Value := readNested (depthLimit - 1)

end GlslFormula.Toml
