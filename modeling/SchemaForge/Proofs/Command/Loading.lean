import SchemaForge.Command
import SchemaForge.Proofs.Files.Reading

/-! What commands read. The document and the configuration file are each read as a whole, so what a command makes of
    them depends on the two readings alone, and reading leaves the disk as it is. -/

namespace SchemaForge

/-- The document that is loaded from what its path reads. -/
def Document.ofReading (path : String) : Option (Except FileError String) → Except LoadError Document
  | none => .error (.notFound path)
  | some (.error e) => .error (.unreadable path e)
  | some (.ok text) =>
    match Document.parse text with
    | .error e => .error (.invalid path e)
    | .ok d => .ok d

/-- The settings that are loaded from what the path of the configuration file reads. -/
def Settings.ofReading (path : String) : Option (Except FileError String) → Except SettingsError Settings
  | none => .ok {}
  | some (.error e) => .error (.unreadable path e)
  | some (.ok text) =>
    match Settings.parse text with
    | .error e => .error (.invalid path e)
    | .ok s =>
      match s.validate with
      | .error e => .error (.invalid path e)
      | .ok () => .ok s

namespace Selection

/-- The path of the configuration file. -/
def configPath (s : Selection) : String := s.config.getD Settings.defaultPath

/-- The settings of a run from what the path of the configuration file reads. -/
def settingsOf (s : Selection) (reading : Option (Except FileError String)) : Except SettingsError Settings :=
  match Settings.ofReading s.configPath reading with
  | .error e => .error e
  | .ok settings =>
    match (settings.merge s.overrides).validate with
    | .error e => .error (.invalid s.configPath e)
    | .ok () => .ok (settings.merge s.overrides)

end Selection

theorem Document.run_load (path : String) (disk : Disk) :
    (Document.load path : StateM Disk _).run disk = (ofReading path (disk.reading path), disk) := by
  refine (Disk.run_read (fun text => ofReading path (some (.ok text))) fun text => ?_).trans ?_
  · simp only [ofReading]
    cases parse text <;> rfl
  · rcases disk.reading path with _ | _ | _ <;> rfl

theorem Document.run_load_of_parse {path text : String} {d : Document} {disk : Disk}
    (h : disk.reading path = some (.ok text)) (hparse : parse text = .ok d) :
    (Document.load path : StateM Disk _).run disk = (.ok d, disk) := by
  rw [run_load, h, ofReading]
  simp only [hparse]

theorem Settings.run_load (path : Option String) (disk : Disk) : (Settings.load path : StateM Disk _).run disk =
    (ofReading (path.getD defaultPath) (disk.reading (path.getD defaultPath)), disk) := by
  refine (Disk.run_read (fun text => ofReading (path.getD defaultPath) (some (.ok text))) fun text => ?_).trans ?_
  · simp only [ofReading]
    cases parse text with
    | error e => rfl
    | ok s =>
      simp only
      cases s.validate <;> rfl
  · rcases disk.reading (path.getD defaultPath) with _ | _ | _ <;> rfl

theorem Selection.run_settings (s : Selection) (disk : Disk) :
    (s.settings : StateM Disk _).run disk = (s.settingsOf (disk.reading s.configPath), disk) := by
  refine (StateT.run_bind _ _ _ : (s.settings : StateM Disk _).run disk = _).trans ?_
  rw [Settings.run_load]
  unfold settingsOf configPath
  cases Settings.ofReading (s.config.getD Settings.defaultPath) (disk.reading (s.config.getD Settings.defaultPath)) with
  | error e => rfl
  | ok settings =>
    change StateT.run (m := Id) (match (settings.merge s.overrides).validate with
      | .error e => pure (Except.error (SettingsError.invalid (s.config.getD Settings.defaultPath) e))
      | .ok () => pure (Except.ok (settings.merge s.overrides))) disk = _
    simp only
    cases (settings.merge s.overrides).validate <;> rfl

/-! ### What a reading that was accepted was -/

theorem Document.ofReading_eq_ok {path : String} {reading : Option (Except FileError String)} {d : Document}
    (h : ofReading path reading = .ok d) : ∃ text, reading = some (.ok text) ∧ parse text = .ok d := by
  rcases reading with _ | _ | text
  · cases h
  · cases h
  · refine ⟨text, rfl, ?_⟩
    simp only [ofReading] at h
    cases hparse : parse text with
    | error e =>
      simp only [hparse] at h
      cases h
    | ok d' =>
      simp only [hparse] at h
      cases h
      rfl

theorem Selection.settingsOf_eq_ok {s : Selection} {reading : Option (Except FileError String)} {settings : Settings}
    (h : s.settingsOf reading = .ok settings) :
    reading = none ∨ ∃ text, reading = some (.ok text) ∧ (Toml.parse? text).isSome = true := by
  rcases reading with _ | _ | text
  · exact Or.inl rfl
  · cases h
  · refine Or.inr ⟨text, rfl, ?_⟩
    cases hparse : Toml.parse? text with
    | none =>
      have hmalformed : Settings.parse text = .error .malformed := by rw [Settings.parse, hparse]
      rw [settingsOf, Settings.ofReading, hmalformed] at h
      cases h
    | some entries => rfl

end SchemaForge
