import SchemaForge.Proofs.Command.Loading
import SchemaForge.Proofs.Settings
import SchemaForge.Proofs.Toml.Reading

/-! Where the settings of a run come from. The file is read as a whole and validated, the flags are put over it and
    the outcome is validated again, so the run has settings when what the file says is valid with the flags and
    without them, and each setting is then the first that is given of the flag, the file's value and the default. -/

namespace SchemaForge

/-- What there is for a configuration file: it is absent and says nothing, or its text is one of the format. A number
    that cannot be held makes it none, wherever it stands. -/
inductive Settings.FileSays (disk : Disk) (path : String) : Toml.Entries → Prop
  | absent : disk.reading path = none → FileSays disk path []
  | present {text : String} {entries : Toml.Entries} : disk.reading path = some (.ok text) →
    Toml.parse? text = some entries → Toml.Entry.allInRange entries = true → FileSays disk path entries

theorem Settings.ofReading_text_eq_ok_iff {path text : String} {entries : Toml.Entries}
    (hparse : Toml.parse? text = some entries) {own : Settings} :
    ofReading path (some (.ok text)) = .ok own ↔ ofEntries entries = .ok own ∧ own.validate = .ok () := by
  simp only [ofReading, parse, hparse]
  cases ofEntries entries with
  | error e => simp
  | ok read =>
    simp only
    constructor
    · intro h
      cases hvalid : read.validate with
      | error e =>
        rw [hvalid] at h
        cases h
      | ok _ =>
        rw [hvalid] at h
        cases h
        exact ⟨rfl, hvalid⟩
    · rintro ⟨h, hvalid⟩
      cases h
      rw [hvalid]

namespace Selection
variable {s : Selection} {disk : Disk} {entries : Toml.Entries}

theorem settingsOf_eq_ok_iff {reading : Option (Except FileError String)} {settings : Settings} :
    s.settingsOf reading = .ok settings ↔ ∃ own, Settings.ofReading s.configPath reading = .ok own ∧
      (own.merge s.overrides).validate = .ok () ∧ settings = own.merge s.overrides := by
  unfold settingsOf
  cases Settings.ofReading s.configPath reading with
  | error e => simp
  | ok own =>
    simp only [Except.ok.injEq, exists_eq_left']
    cases (own.merge s.overrides).validate with
    | error e => simp
    | ok _ => simp [@eq_comm _ settings]

/-- The settings of a run are those of the file with the flags over them, if both are accepted. -/
theorem settings_eq_ok_iff (hfile : Settings.FileSays disk s.configPath entries) {settings : Settings} :
    ((s.settings : StateM Disk _).run disk).1 = .ok settings ↔ ∃ own, (Settings.ofEntries entries = .ok own ∧
      own.validate = .ok ()) ∧ (own.merge s.overrides).validate = .ok () ∧ settings = own.merge s.overrides := by
  rw [run_settings]
  cases hfile with
  | absent habsent =>
    -- The defaults are what no entries give, and they are valid.
    have hdefault : ∀ own, Settings.ofReading s.configPath none = .ok own ↔
        Settings.ofEntries [] = .ok own ∧ own.validate = .ok () := by
      have hread : Settings.ofEntries [] = .ok {} := rfl
      have hvalid : ({} : Settings).validate = .ok () := rfl
      intro own
      rw [hread]
      constructor
      · intro h
        cases h
        exact ⟨rfl, hvalid⟩
      · rintro ⟨h, -⟩
        cases h
        rfl
    simp only [habsent, settingsOf_eq_ok_iff, hdefault]
  | present hreading hparse _ =>
    simp only [hreading, settingsOf_eq_ok_iff, Settings.ofReading_text_eq_ok_iff hparse]

theorem settings_eq_ok_iff_takenFrom (hfile : Settings.FileSays disk s.configPath entries)
    (hkinds : (Toml.Value.table .header entries).isTableWith Settings.kinds = true) {settings : Settings} :
    ((s.settings : StateM Disk _).run disk).1 = .ok settings ↔
      ((Settings.written entries).NamesKnown ∧ (Settings.written entries).Valid {} ∧
        (Settings.written entries).Valid s.overrides) ∧
      settings.TakenFrom s.overrides (Settings.written entries) := by
  obtain ⟨hordered, hrange⟩ : entries.Ordered ∧ Toml.Entry.allInRange entries = true := by
    cases hfile with
    | absent _ => exact ⟨.nil, rfl⟩
    | present _ hparse hrange => exact ⟨Toml.ordered_parse? hparse, hrange⟩
  simp only [settings_eq_ok_iff hfile, Settings.ofEntries_eq_ok_iff hkinds hordered hrange,
    Settings.choosesKnown_iff hordered]
  constructor
  · rintro ⟨_, ⟨⟨hnames, rfl⟩, hown⟩, hmerged, rfl⟩
    have htaken := Settings.takenFrom_fill hnames
    exact ⟨⟨hnames, htaken.validate_eq_ok_iff.mp hown, htaken.merge.validate_eq_ok_iff.mp hmerged⟩, htaken.merge⟩
  · rintro ⟨⟨hnames, hown, hmerged⟩, h⟩
    have htaken := Settings.takenFrom_fill hnames
    exact ⟨_, ⟨⟨hnames, rfl⟩, htaken.validate_eq_ok_iff.mpr hown⟩, htaken.merge.validate_eq_ok_iff.mpr hmerged,
      h.unique htaken.merge⟩

/-- A run has settings exactly when the file's choices are known names, and what the file says is valid, both alone
    and with the flags over it. Every setting is then the flag's value if there is one, otherwise the file's, and
    otherwise the default. Other keys do not matter: files that say the same for the known ones give the same
    settings. -/
theorem settings_precedence (hfile : Settings.FileSays disk s.configPath entries)
    (hkinds : (Toml.Value.table .header entries).isTableWith Settings.kinds = true) :
    let file := Settings.written entries
    let result := ((s.settings : StateM Disk _).run disk).1
    ((∃ settings, result = .ok settings) ↔ file.NamesKnown ∧ file.Valid {} ∧ file.Valid s.overrides) ∧
      (∀ settings, result = .ok settings → settings.TakenFrom s.overrides file) ∧
      ∀ disk' entries', Settings.FileSays disk' s.configPath entries' →
        (Toml.Value.table .header entries').isTableWith Settings.kinds = true → Settings.written entries' = file →
        ∀ settings, ((s.settings : StateM Disk _).run disk').1 = .ok settings ↔ result = .ok settings := by
  intro file result
  have hresult : ∀ settings, result = .ok settings ↔ _ := fun settings => settings_eq_ok_iff_takenFrom hfile hkinds
  refine ⟨⟨?_, ?_⟩, fun settings h => ((hresult settings).mp h).2, ?_⟩
  · rintro ⟨settings, h⟩
    exact ((hresult settings).mp h).1
  · intro hall
    exact ⟨_, (hresult _).mpr ⟨hall, (Settings.takenFrom_fill hall.1).merge⟩⟩
  · intro disk' entries' hfile' hkinds' hsame settings
    rw [settings_eq_ok_iff_takenFrom hfile' hkinds', hresult, hsame]

/-- A disk with a configuration file that says where files go and how they are indented, under a key of its own. -/
def configuredDisk : Disk :=
  ⟨[(["work", "prisma-typebox.toml"], .file (.text
    "x = true\n[output]\ndir = \"o\"\n[generator]\nindent = \"spaces2\"\n")), (["work"], .directory)], ["work"]⟩

def configuredEntries : Toml.Entries :=
  [("generator", ⟨⟨29, 38⟩, ⟨.table .header [("indent", ⟨⟨40, 46⟩, ⟨.string "spaces2", ⟨49, 58⟩⟩⟩)], ⟨28, 39⟩⟩⟩),
    ("output", ⟨⟨10, 16⟩, ⟨.table .header [("dir", ⟨⟨18, 21⟩, ⟨.string "o", ⟨24, 27⟩⟩⟩)], ⟨9, 17⟩⟩⟩),
    ("x", ⟨⟨0, 1⟩, ⟨.boolean true, ⟨4, 8⟩⟩⟩)]

/-- A run with a flag for the library. -/
def withLibrary : Selection := { input := "d.json", overrides := { library := some "lib" } }

theorem settings_withLibrary_configured : ∃ settings,
    ((withLibrary.settings : StateM Disk _).run configuredDisk).1 = .ok settings ∧
      settings.output = { directory := "o", inputSuffix := "Input" } ∧ settings.generator.library = "lib" ∧
      settings.generator.indent = .spaces2 ∧ settings.generator.lineEnding = .lf := by
  have hparse : Toml.parse? "x = true\n[output]\ndir = \"o\"\n[generator]\nindent = \"spaces2\"\n" =
      some configuredEntries := by with_unfolding_all rfl
  have hfile : Settings.FileSays configuredDisk withLibrary.configPath configuredEntries := .present rfl hparse rfl
  obtain ⟨hiff, htaken, -⟩ := settings_precedence hfile rfl
  have hnames : (Settings.written configuredEntries).NamesKnown := by
    refine ⟨fun name hname => ?_, fun name hname => nomatch hname⟩
    rw [← Option.some.inj (hname : some "spaces2" = some name)]
    decide
  have hown : (Settings.written configuredEntries).Valid {} := ⟨by decide, '@', by decide, by decide⟩
  have hmerged : (Settings.written configuredEntries).Valid withLibrary.overrides :=
    ⟨by decide, 'l', by decide, by decide⟩
  obtain ⟨settings, h⟩ := hiff.mpr ⟨hnames, hown, hmerged⟩
  have hvalues := htaken settings h
  exact ⟨settings, h, congrArg₂ OutputSettings.mk hvalues.directory hvalues.inputSuffix, hvalues.library,
    Indent.name_injective hvalues.indent, LineEnding.name_injective hvalues.lineEnding⟩

end Selection

end SchemaForge
