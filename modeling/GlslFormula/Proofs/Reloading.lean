import GlslFormula.Proofs.Document
import GlslFormula.Settings

namespace GlslFormula

open Toml (Section Reads Denotes)

namespace Settings

/-- The fields of the last section. An unset history file has none. -/
def replFields (settings : ReplSettings) : Toml.Entries :=
  ("history_size", .integer settings.historySize) ::
    ((settings.historyFile.map fun path => ("history_file", Toml.Value.string path)).toList ++
      [("prompt", .string settings.prompt)])

def sections (settings : Settings) : List Section :=
  [⟨"compiler", [("precedence", .string settings.compiler.precedence.key)]⟩,
    ⟨"diagnostics", [("colors", .boolean settings.diagnostics.colors),
      ("show_source", .boolean settings.diagnostics.showSource)]⟩,
    ⟨"repl", replFields settings.repl⟩]

/-- The settings are found in their sections. -/
theorem ofEntries_sections (settings : Settings) :
    ofEntries (settings.sections.map Section.table) = some settings := by
  obtain ⟨⟨precedence⟩, ⟨colors, showSource⟩, ⟨historySize, historyFile, prompt⟩⟩ := settings
  cases historyFile <;> cases precedence <;> rfl

theorem denotes_quoted (text : String) : Denotes (quoted text).toList (.string text) := by
  rw [quoted, String.toList_ofList]
  exact Toml.denotes_string text

theorem denotes_boolText (value : Bool) : Denotes (boolText value).toList (.boolean value) := by
  cases value
  · exact Toml.denotes_false
  · exact Toml.denotes_true

/-- A section starts with its name in brackets. -/
def heading (name : String) : String := "[" ++ name ++ "]\n"

/-- A field has a line of its own. -/
def line (name written : String) : String := name ++ " = " ++ written ++ "\n"

section Lines

variable {name written text : String} {value : Toml.Value} {statements : List Toml.Statement}

theorem reads_heading (isKey : Toml.IsBareKey name.toList) (reads : Reads text.toList statements) :
    Reads (heading name ++ text).toList (.header [name] :: statements) := by
  have same : (heading name ++ text).toList =
      '[' :: (name.toList ++ ']' :: '\n' :: text.toList) := by
    simp [heading]
  rw [same]
  exact reads.header isKey

theorem reads_line (isKey : Toml.IsBareKey name.toList) (denotes : Denotes written.toList value)
    (reads : Reads text.toList statements) :
    Reads (line name written ++ text).toList (.assign [name] value :: statements) := by
  have same : (line name written ++ text).toList =
      name.toList ++ ' ' :: '=' :: ' ' :: (written.toList ++ '\n' :: text.toList) := by
    simp [line]
  rw [same]
  exact reads.assign isKey denotes

theorem reads_blankLine (reads : Reads text.toList statements) :
    Reads ("\n" ++ text).toList statements := by
  rw [String.toList_append]
  exact reads.blankLine

end Lines

/-- The text of settings in lines. -/
theorem write_eq {settings : Settings} (fits : settings.repl.historySize < signedCount) :
    settings.write = some
      (heading "compiler" ++ (line "precedence" (quoted settings.compiler.precedence.key) ++
        ("\n" ++ (heading "diagnostics" ++ (line "colors" (boolText settings.diagnostics.colors) ++
          (line "show_source" (boolText settings.diagnostics.showSource) ++
            ("\n" ++ (heading "repl" ++ (line "history_size" (toString settings.repl.historySize) ++
              (historyFileLine settings.repl.historyFile ++
                (line "prompt" (quoted settings.repl.prompt) ++ "")))))))))))  := by
  rw [write, if_pos fits, Option.some.injEq]
  apply String.toList_injective
  simp [heading, line]

theorem historyFileLine_none : historyFileLine none = "" := rfl

theorem historyFileLine_some (path : String) :
    historyFileLine (some path) = line "history_file" (quoted path) := by
  have named : "history_file = " = "history_file" ++ " = " := by decide
  change "history_file = " ++ quoted path ++ "\n" = _
  rw [named, line]

theorem reads_repl {settings : ReplSettings} (fits : settings.historySize < signedCount) :
    Reads (line "history_size" (toString settings.historySize) ++
        (historyFileLine settings.historyFile ++ (line "prompt" (quoted settings.prompt) ++ ""))).toList
      ((replFields settings).map fun field => .assign [field.1] field.2) := by
  have prompt : Reads (line "prompt" (quoted settings.prompt) ++ "").toList
      [.assign ["prompt"] (.string settings.prompt)] :=
    reads_line (by decide) (denotes_quoted settings.prompt) Toml.reads_nil
  refine reads_line (by decide) (Toml.denotes_size fits) ?_
  obtain ⟨historySize, historyFile, prompt⟩ := settings
  cases historyFile with
  | none =>
      rw [historyFileLine_none, String.empty_append]
      exact prompt
  | some path =>
      rw [historyFileLine_some]
      exact reads_line (by decide) (denotes_quoted path) prompt

/-- The text of the settings is a document of their sections. -/
theorem reads_write {settings : Settings} {text : String}
    (fits : settings.repl.historySize < signedCount) (written : settings.write = some text) :
    Reads text.toList (settings.sections.flatMap Section.statements) := by
  rw [write_eq fits, Option.some.injEq] at written
  rw [← written, sections, List.flatMap_cons, List.flatMap_cons, List.flatMap_singleton]
  refine reads_heading (by decide) (reads_line (by decide) (denotes_quoted _) ?_)
  refine reads_blankLine (reads_heading (by decide) (reads_line (by decide) (denotes_boolText _) ?_))
  refine reads_line (by decide) (denotes_boolText _) (reads_blankLine ?_)
  exact reads_heading (by decide) (reads_repl fits)

theorem distinct_sections (settings : Settings) :
    (settings.sections.map Section.name).Nodup ∧ ∀ part ∈ settings.sections, part.Distinct := by
  have names : settings.sections.map Section.name = ["compiler", "diagnostics", "repl"] := rfl
  rw [names]
  refine ⟨by decide, ?_⟩
  obtain ⟨⟨precedence⟩, ⟨colors, showSource⟩, ⟨historySize, historyFile, prompt⟩⟩ := settings
  simp only [sections, List.forall_mem_cons, List.not_mem_nil, false_implies, implies_true,
    and_true, Section.Distinct, replFields]
  cases historyFile <;> simp

/-- The text of settings is read back. -/
theorem parse_write {settings : Settings} (fits : settings.repl.historySize < signedCount) :
    ∃ text, settings.write = some text ∧ parse text = some settings := by
  have written := write_eq fits
  refine ⟨_, written, ?_⟩
  obtain ⟨names, fields⟩ := distinct_sections settings
  have document := Toml.readDocument_sections (reads_write fits written) (by simp [heading]) names fields
  rw [parse, document, Option.bind_eq_bind, Option.bind_some, ofEntries_sections]

end Settings

end GlslFormula
