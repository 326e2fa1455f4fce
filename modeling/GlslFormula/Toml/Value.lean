namespace GlslFormula.Toml

/-- The form of a table decides who may add to it. An inline table is closed. A dotted table came
from a dotted key, an implied one from the path of a header, and an explicit one from a header of
its own. -/
inductive TableForm where
  | inline
  | inlineDotted
  | implied
  | dotted
  | explicit
deriving DecidableEq

/-- Floats and dates are checked but their value is not kept. The elements of a table array are
stored with the latest one first. -/
inductive Value where
  | string (text : String)
  | integer (value : Int)
  | float
  | boolean (value : Bool)
  | datetime
  | array (items : List Value)
  | table (form : TableForm) (entries : List (String × Value))
  | tables (elements : List (List (String × Value)))

/-- Entries keep the order of insertion. -/
abbrev Entries := List (String × Value)

/-- The key keeps its place. -/
def Entries.replace (key : String) (value : Value) : Entries → Entries
  | [] => []
  | entry :: rest =>
      if entry.1 = key then (key, value) :: rest else entry :: Entries.replace key value rest

def Entries.erase (entries : Entries) (key : String) : Entries :=
  entries.eraseP fun entry => entry.1 == key

end GlslFormula.Toml
