/-
This file splits text into clusters. A cluster is what a reader takes for one character.
-/
import GlslFormula.Text.Cluster.Table

namespace GlslFormula

/-- The part that a character can play in a cluster. -/
inductive ClusterRole where
  | control
  | carriageReturn
  | lineFeed
  | opener
  | mark
  | spacing
  | linker
  | joiner
  | nonJoiner
  | consonant
  | pictograph
  | regional
  | leading
  | vowel
  | trailing
  /-- A whole syllable without a trailing letter. -/
  | openSyllable
  /-- A whole syllable with a trailing letter. -/
  | closedSyllable
  | plain
deriving DecidableEq

namespace ClusterRole

/-- The roles that are given by a list of characters. The lists have no common character. -/
def table : List (ClusterRole × List (Nat × Nat)) :=
  [(.control, Cluster.controlRanges), (.opener, Cluster.openerRanges), (.mark, Cluster.markRanges),
    (.spacing, Cluster.spacingRanges), (.linker, Cluster.linkerRanges),
    (.consonant, Cluster.consonantRanges), (.pictograph, Cluster.pictographRanges),
    (.leading, Cluster.leadingRanges), (.vowel, Cluster.vowelRanges),
    (.trailing, Cluster.trailingRanges)]

/-- The first range that does not end before the code decides. -/
def isWithin (code : Nat) : List (Nat × Nat) → Bool
  | [] => false
  | range :: rest => if range.2 < code then isWithin code rest else decide (range.1 ≤ code)

/-- Syllables are numbered by their letters, and each has room for 28 endings. -/
def ofSyllable (number : Nat) : ClusterRole :=
  if number % 28 = 0 then .openSyllable else .closedSyllable

def ofChar (c : Char) : ClusterRole :=
  match c with
  | '\r' => .carriageReturn
  | '\n' => .lineFeed
  | '\u200c' => .nonJoiner
  | '\u200d' => .joiner
  | _ =>
      if 0xAC00 ≤ c.toNat ∧ c.toNat ≤ 0xD7A3 then ofSyllable (c.toNat - 0xAC00)
      else if 0x1F1E6 ≤ c.toNat ∧ c.toNat ≤ 0x1F1FF then .regional
      else ((table.find? fun entry => isWithin c.toNat entry.2).map Prod.fst).getD .plain

/-- These roles stand alone. -/
def isControl : ClusterRole → Bool
  | .control | .carriageReturn | .lineFeed => true
  | _ => false

/-- These roles always belong to the character before them. -/
def isAttached : ClusterRole → Bool
  | .mark | .spacing | .linker | .joiner | .nonJoiner => true
  | _ => false

/-- Marks between the parts of a conjunct. -/
def isConjunctMark : ClusterRole → Bool
  | .mark | .linker | .joiner => true
  | _ => false

/-- Marks on a picture. -/
def isPictureMark : ClusterRole → Bool
  | .mark | .linker | .nonJoiner => true
  | _ => false

/-- A conjunct goes on when a linker stands among the marks behind a consonant. -/
def awaitsConsonant (before : List ClusterRole) : Bool :=
  (before.takeWhile isConjunctMark).contains .linker &&
    (before.dropWhile isConjunctMark).head? == some .consonant

/-- A joiner behind a picture, which may have marks, asks for another picture. -/
def awaitsPicture : List ClusterRole → Bool
  | .joiner :: before => (before.dropWhile isPictureMark).head? == some .pictograph
  | _ => false

/-- Regional letters form pairs, which are counted from the start of their run. -/
def awaitsRegional (before : List ClusterRole) : Bool :=
  (before.takeWhile (· == .regional)).length % 2 == 1

/-- Whether the letters of a syllable may stand in this order. -/
def isSyllablePair : ClusterRole → ClusterRole → Bool
  | .leading, .leading | .leading, .vowel | .leading, .openSyllable | .leading, .closedSyllable
  | .openSyllable, .vowel | .openSyllable, .trailing | .vowel, .vowel | .vowel, .trailing
  | .closedSyllable, .trailing | .trailing, .trailing => true
  | _, _ => false

/-- Whether a character continues the cluster of the last one. The roles before it are listed with
the nearest one first. -/
def joins (before : List ClusterRole) (role : ClusterRole) : Bool :=
  match before with
  | [] => false
  | last :: _ =>
      if last.isControl || role.isControl then last == .carriageReturn && role == .lineFeed
      else last == .opener || role.isAttached || isSyllablePair last role ||
        (role == .consonant && awaitsConsonant before) ||
        (role == .pictograph && awaitsPicture before) ||
        (role == .regional && awaitsRegional before)

end ClusterRole

namespace Cluster

/-- The current cluster is collected in reverse. -/
def splitFrom (before : List ClusterRole) (current : List Char) : List Char → List (List Char)
  | [] => if current.isEmpty then [] else [current.reverse]
  | c :: rest =>
      let role := ClusterRole.ofChar c
      if ClusterRole.joins before role then splitFrom (role :: before) (c :: current) rest
      else if current.isEmpty then splitFrom (role :: before) [c] rest
      else current.reverse :: splitFrom (role :: before) [c] rest

end Cluster

def clusters (text : List Char) : List (List Char) := Cluster.splitFrom [] [] text

end GlslFormula
