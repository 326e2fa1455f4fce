import GlslFormula.Text.Bytes
import GlslFormula.Text.Cluster

namespace GlslFormula

/-- The text that is kept so far, and the sizes of its clusters in bytes. Both have the last one
first. -/
structure LineBuffer where
  text : List Char := []
  sizes : List Nat := []
deriving DecidableEq

namespace LineBuffer

def backspace : Char := '\x08'

/-- The size of a cluster is kept in one byte, so a longer cluster has the remainder. -/
def sizeCount : Nat := 256

def clusterSize (cluster : List Char) : Nat := byteSize cluster % sizeCount

/-- A backspace in front of the first cluster does nothing. -/
def erase? (buffer : LineBuffer) : Option LineBuffer :=
  match buffer.sizes with
  | [] => some buffer
  | size :: rest => (dropBytes? buffer.text size).map fun text => ⟨text, rest⟩

def push (buffer : LineBuffer) (cluster : List Char) : LineBuffer :=
  ⟨cluster.reverse ++ buffer.text, clusterSize cluster :: buffer.sizes⟩

def type? (buffer : LineBuffer) (cluster : List Char) : Option LineBuffer :=
  if cluster = [backspace] then buffer.erase? else some (buffer.push cluster)

def line (buffer : LineBuffer) : String := String.ofList buffer.text.reverse

end LineBuffer

/-- The line that is left when each backspace has removed the cluster before it. There is none when
a backspace would split a character. -/
def editLine (line : String) : Option String :=
  ((clusters line.toList).foldlM LineBuffer.type? {}).map LineBuffer.line

end GlslFormula
