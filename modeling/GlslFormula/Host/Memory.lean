import GlslFormula.Host
import GlslFormula.Host.Path

namespace GlslFormula

inductive StoreEntry where
  | file (text : String)
  | directory
deriving DecidableEq

/-- A location is the list of names from the root. -/
abbrev Location := List String

/-- The entries of a file system without its root. -/
abbrev Store := List (Location × StoreEntry)

namespace Store

/-- The root is always a directory. -/
def get? (store : Store) (location : Location) : Option StoreEntry :=
  if location = [] then some .directory else List.lookup location store

def insert (store : Store) (location : Location) (entry : StoreEntry) : Store :=
  (location, entry) :: store

/-- The location that the pieces of a path lead to. Only the last piece may be missing. -/
def walk (store : Store) (location : Location) : List String → Except FileError Location
  | [] => .ok location
  | piece :: rest =>
      match store.get? location with
      | none => .error .notFound
      | some (.file _) => .error .notDirectory
      | some .directory =>
          if Path.isIdle piece then store.walk location rest
          else if piece = ".." then store.walk location.dropLast rest
          else if Path.isTooLong piece then .error .nameTooLong
          else store.walk (location ++ [piece]) rest

/-- Missing directories are created on the way, and they stay when a later one cannot be created.
Behind a new directory each piece is asked for by itself, and a file there exists already. -/
def makeAll (store : Store) (location : Location) (created : Bool) :
    List String → Except FileError Unit × Store
  | [] => (.ok (), store)
  | piece :: rest =>
      if Path.isIdle piece then store.makeAll location created rest
      else if piece = ".." then store.makeAll location.dropLast created rest
      else if Path.isTooLong piece then (.error .nameTooLong, store)
      else match store.get? (location ++ [piece]) with
        | none =>
            (store.insert (location ++ [piece]) .directory).makeAll (location ++ [piece]) true rest
        | some .directory => store.makeAll (location ++ [piece]) created rest
        | some (.file _) =>
            (.error (if created || rest.isEmpty then .alreadyExists else .notDirectory), store)

end Store

/-- A path that does not start at the root starts at `directory`. -/
structure MemoryHost where
  store : Store := []
  directory : Location := []
  environment : List (String × String) := []
  input : List String := []
  printed : String := ""
  reported : String := ""

namespace MemoryHost

def origin (host : MemoryHost) (path : String) : Location :=
  if path.toList.head? = some '/' then [] else host.directory

/-- The empty path leads nowhere. -/
def locate (host : MemoryHost) (path : String) : Except FileError Location :=
  match Path.refusal? path with
  | some error => .error error
  | none =>
      if path = "" then .error .notFound
      else host.store.walk (host.origin path) (Path.pieces path)

def readText (host : MemoryHost) (path : String) : Except FileError String :=
  match host.locate path with
  | .error error => .error error
  | .ok location =>
      match host.store.get? location with
      | some (.file text) => .ok text
      | some .directory => .error .isDirectory
      | none => .error .notFound

def pathExists (host : MemoryHost) (path : String) : Bool :=
  match host.locate path with
  | .error _ => false
  | .ok location => (host.store.get? location).isSome

/-- A path that ends in a slash can only name a directory. -/
def writeText (host : MemoryHost) (path text : String) : Except FileError MemoryHost :=
  match Path.refusal? path with
  | some error => .error error
  | none =>
      if path.toList.getLast? = some '/' then .error .isDirectory
      else match host.locate path with
        | .error error => .error error
        | .ok location =>
            if host.store.get? location = some .directory then .error .isDirectory
            else .ok { host with store := host.store.insert location (.file text) }

/-- The empty path needs no directory. -/
def makeDirectories (host : MemoryHost) (path : String) : Except FileError Unit × MemoryHost :=
  match Path.refusal? path with
  | some error => (.error error, host)
  | none =>
      let (result, store) := host.store.makeAll (host.origin path) false (Path.pieces path)
      (result, { host with store })

/-- The file can be read at once. -/
def withFile (host : MemoryHost) (path text : String) : MemoryHost :=
  let made := match Path.parent? path with
    | some parent => (host.makeDirectories parent).2
    | none => host
  (made.writeText path text).toOption.getD made

def print (host : MemoryHost) (text : String) : MemoryHost :=
  { host with printed := host.printed ++ text }

def report (host : MemoryHost) (text : String) : MemoryHost :=
  { host with reported := host.reported ++ text }

/-- The conversation reads the given lines. -/
def converse {State : Type} (notice prompt : String) (answer : State → String → Turn State) :
    List String → State → MemoryHost → State × MemoryHost
  | [], state, host => (state, (host.report notice).print prompt)
  | line :: rest, state, host =>
      let turn := answer state line
      let asked := (host.report notice).print prompt
      let shown := (asked.report turn.reported).print turn.printed
      if turn.isLast then (turn.state, shown)
      else converse notice prompt answer rest turn.state shown

/-- A failed change leaves nothing behind. -/
def attempt (change : MemoryHost → Except FileError MemoryHost) :
    StateM MemoryHost (Except FileError Unit) := do
  match change (← get) with
  | .ok next =>
      set next
      return .ok ()
  | .error error => return .error error

end MemoryHost

instance : Host (StateM MemoryHost) where
  readText path := do return (← get).readText path
  writeText path text := MemoryHost.attempt fun host => host.writeText path text
  pathExists path := do return (← get).pathExists path
  makeDirectories path := modifyGet fun host => host.makeDirectories path
  getVariable name := do return (← get).environment.lookup name
  print text := modify fun host => host.print text
  report text := modify fun host => host.report text
  converse notice prompt answer state := do
    let host ← get
    let (final, next) := MemoryHost.converse notice prompt answer host.input state host
    set next
    return final

end GlslFormula
