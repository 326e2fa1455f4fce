import GlslFormula.Host.Memory
import GlslFormula.Proofs.Reloading
import GlslFormula.Settings.Files

namespace GlslFormula

namespace Store

variable {store : Store}

theorem get?_insert_self {location : Location} (entry : StoreEntry) (below : location ≠ []) :
    (store.insert location entry).get? location = some entry := by
  rw [get?, if_neg below, insert, List.lookup_cons_self]

theorem get?_insert_of_ne {location other : Location} (entry : StoreEntry)
    (different : other ≠ location) :
    (store.insert location entry).get? other = store.get? other := by
  rw [get?, get?, insert, List.lookup_cons, beq_eq_false_iff_ne.mpr different]

/-- A path leads through directories, and none of them is the file at its end. -/
theorem walk_insert {location target : Location} {pieces : List String} (entry : StoreEntry)
    (found : store.walk location pieces = .ok target)
    (notDirectory : store.get? target ≠ some .directory) :
    (store.insert target entry).walk location pieces = .ok target := by
  induction pieces generalizing location with
  | nil => exact found
  | cons piece pieces inductionHypothesis =>
      rw [walk] at found ⊢
      split at found
      case h_1 => cases found
      case h_2 => cases found
      case h_3 directory =>
        have different : location ≠ target := by
          rintro rfl
          exact notDirectory directory
        simp only [get?_insert_of_ne entry different, directory]
        split_ifs at found ⊢ with idle up long
        · exact inductionHypothesis found
        · exact inductionHypothesis found
        · exact inductionHypothesis found

/-- Directories are made only where nothing is, also when a later one cannot be made. -/
theorem makeAll_file (location : Location) (created : Bool) (pieces : List String)
    (other : Location) (text : String) :
    (store.makeAll location created pieces).2.get? other = some (.file text) ↔
      store.get? other = some (.file text) := by
  fun_induction makeAll store location created pieces with
  | case1 => rfl
  | case2 _ _ _ _ _ _ inductionHypothesis => exact inductionHypothesis
  | case3 _ _ _ _ _ inductionHypothesis => exact inductionHypothesis
  | case4 => rfl
  | case5 store location _ piece rest _ _ _ missing inductionHypothesis =>
      rw [inductionHypothesis]
      by_cases same : other = location ++ [piece]
      · rw [same, missing, get?_insert_self _ (by simp)]
        simp
      · rw [get?_insert_of_ne _ same]
  | case6 _ _ _ _ _ _ _ _ _ inductionHypothesis => exact inductionHypothesis
  | case7 => rfl

/-- The new directory stays, and the file behind it is in the way. -/
example : makeAll [(["f"], .file "text")] [] false ["a", "..", "f", "x"] =
    (.error .alreadyExists, [(["a"], .directory), (["f"], .file "text")]) := by
  decide +kernel

end Store

namespace MemoryHost

variable {host after : MemoryHost} {path text : String}

theorem locate_insert {target : Location} (entry : StoreEntry) (found : host.locate path = .ok target)
    (notDirectory : host.store.get? target ≠ some .directory) :
    { host with store := host.store.insert target entry }.locate path = .ok target := by
  rw [locate] at found ⊢
  split at found
  case h_1 => cases found
  case h_2 =>
    split at found
    case isTrue => cases found
    case isFalse named =>
      rw [if_neg named]
      exact Store.walk_insert entry found notDirectory

/-- Text is written only where a path leads to no directory. -/
theorem writeText_cases (wrote : host.writeText path text = .ok after) :
    ∃ target, host.locate path = .ok target ∧ host.store.get? target ≠ some .directory ∧
      after = { host with store := host.store.insert target (.file text) } := by
  rw [writeText] at wrote
  split at wrote
  case h_1 => cases wrote
  case h_2 =>
    split at wrote
    case isTrue => cases wrote
    case isFalse =>
      split at wrote
      case h_1 => cases wrote
      case h_2 target found =>
        split at wrote
        case isTrue => cases wrote
        case isFalse notDirectory => exact ⟨target, found, notDirectory, (Except.ok.inj wrote).symm⟩

/-- A file that was written is read back. -/
theorem readText_of_writeText (wrote : host.writeText path text = .ok after) :
    after.readText path = .ok text := by
  obtain ⟨target, found, notDirectory, rfl⟩ := writeText_cases wrote
  have below : target ≠ [] := by
    rintro rfl
    exact notDirectory (if_pos rfl)
  rw [readText, locate_insert (.file text) found notDirectory]
  simp only [Store.get?_insert_self (.file text) below]

theorem attempt_run (change : MemoryHost → Except FileError MemoryHost) :
    (attempt change).run host =
      match change host with
      | .ok next => (.ok (), next)
      | .error error => (.error error, host) := by
  rw [attempt, StateT.run_bind]
  change StateT.run (match change host with | .ok next => _ | .error error => _) host = _
  cases change host <;> rfl

/-- Making directories changes no file. -/
theorem makeDirectories_file (host : MemoryHost) (path : String) (location : Location)
    (text : String) :
    (host.makeDirectories path).2.store.get? location = some (.file text) ↔
      host.store.get? location = some (.file text) := by
  rw [makeDirectories]
  split
  · rfl
  · exact Store.makeAll_file ..

end MemoryHost

namespace Settings

/-- How saving ends and what the host is then. -/
def saved (settings : Settings) (path : String) (host : MemoryHost) :
    Except SettingsError Unit × MemoryHost :=
  (settings.save path : StateM MemoryHost _).run host

def loaded (threshold : LogLevel) (path : String) (host : MemoryHost) :
    Except SettingsError Settings :=
  ((loadFrom threshold path : StateM MemoryHost _).run host).1

/-- The directory of the file is missing and cannot be made. -/
def Obstructed (host : MemoryHost) (path : String) (error : FileError) : Prop :=
  ∃ parent, Path.parent? path = some parent ∧ host.pathExists parent = false ∧
    (host.makeDirectories parent).1 = .error error

theorem loaded_eq {host : MemoryHost} {path text : String} (read : host.readText path = .ok text)
    (threshold : LogLevel) :
    loaded threshold path host = (parse text).elim (.error .parse) .ok := by
  have reading (line : String) : (Host.readText path : StateM MemoryHost _).run (host.report line) =
      (.ok text, host.report line) := congrArg (·, host.report line) read
  rw [loaded, loadFrom, StateT.run_bind]
  change ((Host.readText path >>= _ : StateM MemoryHost _).run (host.report _)).1 = _
  rw [StateT.run_bind, reading]
  simp only [bind]
  cases parse text <;> rfl

variable (settings : Settings) (path : String) (host : MemoryHost)

theorem makeParent_run : (makeParent path : StateM MemoryHost _).run host =
    match Path.parent? path with
    | none => (.ok (), host)
    | some parent =>
        if host.pathExists parent then (.ok (), host) else host.makeDirectories parent := by
  rw [makeParent]
  cases Path.parent? path with
  | none => rfl
  | some parent =>
    rw [StateT.run_bind]
    change (if host.pathExists parent then _ else Host.makeDirectories parent : StateM _ _).run host = _
    dsimp only
    split <;> rfl

/-- An obstruction is what makes the directory of a file fail. -/
theorem obstructed_iff (error : FileError) : Obstructed host path error ↔
    ((makeParent path : StateM MemoryHost _).run host).1 = .error error := by
  rw [makeParent_run, Obstructed]
  cases Path.parent? path with
  | none => simp
  | some parent => cases present : host.pathExists parent <;> simp [present]

/-- The directory of a file is there, or is made as far as it can be, and no file changes. -/
theorem makeParent_file (location : Location) (text : String) :
    ((makeParent path : StateM MemoryHost _).run host).2.store.get? location = some (.file text) ↔
      host.store.get? location = some (.file text) := by
  rw [makeParent_run]
  split
  · rfl
  · split
    · rfl
    · exact MemoryHost.makeDirectories_file ..

theorem saved_eq : settings.saved path host =
    match (makeParent path : StateM MemoryHost _).run host with
    | (.error error, made) => (.error (.file path error), made)
    | (.ok (), made) =>
        match settings.write with
        | none => (.error .serialize, made)
        | some text =>
            match made.writeText path text with
            | .ok after => (.ok (), after)
            | .error error => (.error (.file path error), made) := by
  rw [saved, save, StateT.run_bind]
  rcases (makeParent path : StateM MemoryHost _).run host with ⟨_ | _, made⟩
  · rfl
  · cases settings.write with
    | none => rfl
    | some text =>
      change (Except.mapError _ <$> MemoryHost.attempt _ : StateM _ _).run made = _
      rw [StateT.run_map, MemoryHost.attempt_run]
      dsimp only
      cases made.writeText path text <;> rfl

/-- Saving settings with a text fails only at a file. Otherwise the file has the text. -/
theorem saved_of_text {text : String} (written : settings.write = some text) :
    (settings.saved path host).1 ≠ .error .serialize ∧
      ((settings.saved path host).1 = .ok () →
        (settings.saved path host).2.readText path = .ok text) := by
  rw [saved_eq, written]
  rcases (makeParent path : StateM MemoryHost _).run host with ⟨error | _, made⟩
  · simp
  · dsimp only
    cases wrote : made.writeText path text with
    | error error => simp
    | ok after => exact ⟨by simp, fun _ => MemoryHost.readText_of_writeText wrote⟩

/-- Saving settings without a text fails and changes no file. -/
theorem saved_of_noText (unwritten : settings.write = none) :
    (∀ error, Obstructed host path error →
        (settings.saved path host).1 = .error (.file path error)) ∧
      ((∀ error, ¬ Obstructed host path error) →
        (settings.saved path host).1 = .error .serialize) ∧
      ∀ location text, (settings.saved path host).2.store.get? location = some (.file text) ↔
        host.store.get? location = some (.file text) := by
  have files := makeParent_file path host
  simp only [saved_eq, unwritten, obstructed_iff]
  generalize (makeParent path : StateM MemoryHost _).run host = outcome at files ⊢
  obtain ⟨error | _, made⟩ := outcome
  · exact ⟨by simp, by simp, files⟩
  · exact ⟨by simp, fun _ => rfl, files⟩

/-- Saved settings are loaded again as they were. Settings whose history size is no signed word
change no file. Saving them fails where the directory of the file cannot be made, and else because
they have no text. -/
theorem save_reloads :
    (settings.repl.historySize < signedCount →
      ∃ text, settings.write = some text ∧ parse text = some settings ∧
        (settings.saved path host).1 ≠ .error .serialize ∧
        ((settings.saved path host).1 = .ok () →
          (settings.saved path host).2.readText path = .ok text ∧
          ∀ threshold, loaded threshold path (settings.saved path host).2 = .ok settings)) ∧
    (signedCount ≤ settings.repl.historySize →
      (∀ error, Obstructed host path error →
        (settings.saved path host).1 = .error (.file path error)) ∧
      ((∀ error, ¬ Obstructed host path error) →
        (settings.saved path host).1 = .error .serialize) ∧
      ∀ location text, (settings.saved path host).2.store.get? location = some (.file text) ↔
        host.store.get? location = some (.file text)) := by
  refine ⟨fun fits => ?_, fun exceeds => ?_⟩
  · obtain ⟨text, written, parsed⟩ := parse_write fits
    obtain ⟨hasText, inFile⟩ := saved_of_text settings path host written
    refine ⟨text, written, parsed, hasText, fun done => ⟨inFile done, fun threshold => ?_⟩⟩
    rw [loaded_eq (inFile done), parsed, Option.elim_some]
  · exact saved_of_noText settings path host (if_neg (Nat.not_lt.mpr exceeds))

/-- Both kinds of quotes and a line break stand in the prompt. -/
theorem save_reloads_sample :
    loaded .error "x/config.toml"
      (saved { repl := { prompt := "a\"\\\n\t'é" } } "x/config.toml" {}).2 =
        .ok { repl := { prompt := "a\"\\\n\t'é" } } := by
  obtain ⟨text, -, -, -, reloads⟩ := (save_reloads
    { repl := { prompt := "a\"\\\n\t'é" } } "x/config.toml" {}).1 (by decide)
  exact (reloads (by decide +kernel)).2 _

/-- The directory is to be below a file. -/
theorem save_below_file :
    (saved { repl := { historySize := signedCount } } "a/x/config.toml"
      { store := [(["a"], .file "text")] }).1 =
        .error (.file "a/x/config.toml" .notDirectory) := by
  decide +kernel

end Settings

end GlslFormula
