import SchemaForge.Proofs.Command.Loading
import SchemaForge.Proofs.Files.Edits
import SchemaForge.Proofs.Generation.Preamble
import SchemaForge.Proofs.Plan
import SchemaForge.Proofs.Text.Blank

/-! What `validate` says of the files that `generate` has written. Both commands load the same settings and the same
    document, since no written file is read as either; so `validate` compares the disk with the files that were
    written, and counts those that are missing or differ. -/

namespace SchemaForge

/-! ### Comparing files with the disk -/

/-- The lines that report a file in a state. -/
def FileStatus.lines (path : String) : FileStatus → List String
  | upToDate => []
  | stale => ["  stale " ++ path]
  | missing => ["  missing " ++ path]

namespace OutputFile
variable {disk : Disk}

/-- The state of a file whose path reads a text or nothing. -/
def status (disk : Disk) (f : OutputFile) : FileStatus :=
  match disk.reading f.path with
  | some (.ok text) => if f.agreesWith text then .upToDate else .stale
  | _ => .missing

theorem run_check {f : OutputFile} (h : ∀ e, disk.reading f.path ≠ some (.error e)) :
    (f.check : StateM Disk _).run disk = (.ok (f.status disk), disk) := by
  refine (StateT.run_bind _ _ _ : (f.check : StateM Disk _).run disk = _).trans ?_
  have hholds : (FileStore.holds f.path : StateM Disk Bool).run disk = (disk.holds f.path, disk) := rfl
  have hread : (FileStore.readText f.path : StateM Disk _).run disk = (disk.readText f.path, disk) := rfl
  unfold Disk.reading at h
  unfold status Disk.reading
  rw [hholds]
  cases hthere : disk.holds f.path with
  | false => rfl
  | true =>
    refine (StateT.run_bind _ _ _ : _ = _).trans ?_
    rw [hread]
    cases htext : disk.readText f.path with
    | error e => exact absurd (by rw [hthere, htext]; rfl) (h e)
    | ok text => rfl

end OutputFile

namespace Command
variable {disk disk' : Disk} {s : Selection} {settings : Settings} {d : Document}

/-- When every file can be read if it is there, each is reported in its state. -/
theorem run_checkAll {files : List OutputFile} (h : ∀ f ∈ files, ∀ e, disk.reading f.path ≠ some (.error e)) :
    (checkAll files : StateM Disk _).run disk = (.ok (files.flatMap fun f => (f.status disk).lines f.path), disk) := by
  induction files with
  | nil => rfl
  | cons f fs ih =>
    refine (StateT.run_bind _ _ _ : (checkAll (f :: fs) : StateM Disk _).run disk = _).trans ?_
    rw [OutputFile.run_check (h f List.mem_cons_self), List.flatMap_cons]
    refine (StateT.run_bind _ _ _ : _ = _).trans ?_
    rw [ih fun g hg => h g (List.mem_cons_of_mem f hg)]
    cases f.status disk <;> rfl

theorem length_lines (files : List OutputFile) : (files.flatMap fun f => (f.status disk).lines f.path).length =
    files.countP fun f => f.status disk ≠ .upToDate := by
  induction files with
  | nil => rfl
  | cons f fs ih =>
    rw [List.flatMap_cons, List.length_append, ih, List.countP_cons, Nat.add_comm]
    cases f.status disk <;> rfl

/-- The failure of a validation that found so many files out of date. -/
def outOfDate (count : Nat) : Option Failure :=
  if count = 0 then none else some (.validation (toString count ++ " file(s) out of date"))

/-- The report of a validation, over the lines that report its files. -/
def validationReport (lines : List String) : Report :=
  ⟨["Validating schemas..."] ++
    (if lines = [] then ["✓ Schemas are up-to-date"]
      else lines ++ ["✗ Schemas are out of date", "  Run 'prisma-typebox generate' to update"]), outOfDate lines.length⟩

/-- A validation compares the files that are planned for the document and the settings that it loads. -/
theorem run_validate (hsettings : (s.settings : StateM Disk _).run disk = (.ok settings, disk))
    (hload : (Document.load s.input : StateM Disk _).run disk = (.ok d, disk))
    (h : ∀ f ∈ (settings.plan d).files, ∀ e, disk.reading f.path ≠ some (.error e)) :
    (run (.validate s) : StateM Disk _).run disk =
      (validationReport ((settings.plan d).files.flatMap fun f => (f.status disk).lines f.path), disk) := by
  refine (StateT.run_bind _ _ _ : (runValidate s : StateM Disk _).run disk = _).trans ?_
  rw [hsettings]
  refine (StateT.run_bind _ _ _ : _ = _).trans ?_
  rw [hload]
  refine (StateT.run_bind _ _ _ : _ = _).trans ?_
  rw [run_checkAll h]
  cases (settings.plan d).files.flatMap fun f => (f.status disk).lines f.path <;> rfl

theorem failure_validate (hsettings : (s.settings : StateM Disk _).run disk = (.ok settings, disk))
    (hload : (Document.load s.input : StateM Disk _).run disk = (.ok d, disk))
    (h : ∀ f ∈ (settings.plan d).files, ∀ e, disk.reading f.path ≠ some (.error e)) :
    ((run (.validate s) : StateM Disk _).run disk).1.failure =
      outOfDate ((settings.plan d).files.countP fun f => f.status disk ≠ .upToDate) := by
  rw [run_validate hsettings hload h, ← length_lines]
  rfl

/-- The report of a generation that did not fail. -/
def generationReport (s : Selection) (settings : Settings) (d : Document) (results : List WriteResult) : Report :=
  ⟨["Loading " ++ s.input, foundLine d, "Generating TypeBox schemas..."] ++ warningLines (settings.plan d) ++
    results.flatMap resultLines ++ ["  Generated " ++ toString (settings.plan d).files.length ++ " file(s)"], none⟩

/-- A generation reads its settings and its document, and then writes the files that are planned for them. -/
theorem run_generate_of_readings (s : Selection) (dryRun : Bool) (disk : Disk) :
    (run (.generate s dryRun) : StateM Disk _).run disk =
      match s.settingsOf (disk.reading s.configPath) with
      | .error e => (⟨[], some (.settings e)⟩, disk)
      | .ok settings =>
        match Document.ofReading s.input (disk.reading s.input) with
        | .error e => (⟨["Loading " ++ s.input], some (.load e)⟩, disk)
        | .ok d =>
          match (OutputFile.writeAll dryRun (settings.plan d).files : StateM Disk _).run disk with
          | (.error e, disk') => (⟨["Loading " ++ s.input, foundLine d, "Generating TypeBox schemas..."] ++
              warningLines (settings.plan d), some (.write e)⟩, disk')
          | (.ok results, disk') => (generationReport s settings d results, disk') := by
  refine (StateT.run_bind _ _ _ : (runGenerate s dryRun : StateM Disk _).run disk = _).trans ?_
  rw [s.run_settings]
  cases s.settingsOf (disk.reading s.configPath) with
  | error e => rfl
  | ok settings =>
    refine (StateT.run_bind _ _ _ : _ = _).trans ?_
    rw [Document.run_load]
    cases Document.ofReading s.input (disk.reading s.input) with
    | error e => rfl
    | ok d =>
      refine (StateT.run_bind _ _ _ : _ = _).trans ?_
      simp only
      rcases (OutputFile.writeAll dryRun (settings.plan d).files : StateM Disk _).run disk with ⟨_ | _, _⟩
      · rfl
      · rfl

/-- A generation writes the files that are planned for the document and the settings that it loads. -/
theorem run_generate {results : List WriteResult}
    (hsettings : (s.settings : StateM Disk _).run disk = (.ok settings, disk))
    (hload : (Document.load s.input : StateM Disk _).run disk = (.ok d, disk))
    (hwrite : (OutputFile.writeAll false (settings.plan d).files : StateM Disk _).run disk = (.ok results, disk')) :
    (run (.generate s false) : StateM Disk _).run disk = (generationReport s settings d results, disk') := by
  rw [s.run_settings] at hsettings
  rw [Document.run_load] at hload
  rw [run_generate_of_readings, (Prod.mk.inj hsettings).1]
  simp only [(Prod.mk.inj hload).1, hwrite]

/-- A generation that did not fail has loaded its settings and its document and written the planned files. -/
theorem run_generate_eq_ok {report : Report}
    (h : (run (.generate s false) : StateM Disk _).run disk = (report, disk')) (hok : report.failure = none) :
    ∃ settings d results, (s.settings : StateM Disk _).run disk = (.ok settings, disk) ∧
      (Document.load s.input : StateM Disk _).run disk = (.ok d, disk) ∧
      (OutputFile.writeAll false (settings.plan d).files : StateM Disk _).run disk = (.ok results, disk') := by
  rw [run_generate_of_readings] at h
  rw [s.run_settings, Document.run_load]
  rcases hs : s.settingsOf (disk.reading s.configPath) with e | settings
  · rw [hs] at h
    cases h
    cases hok
  · rcases hd : Document.ofReading s.input (disk.reading s.input) with e | d
    · simp only [hs, hd] at h
      cases h
      cases hok
    · rcases hw : (OutputFile.writeAll false (settings.plan d).files : StateM Disk _).run disk with ⟨_ | results, _⟩
      · simp only [hs, hd, hw] at h
        cases h
        cases hok
      · simp only [hs, hd, hw] at h
        cases h
        exact ⟨settings, d, results, rfl, rfl, hw⟩

/-! ### Validating what was generated -/

theorem outOfDate_eq_none_iff {count : Nat} : outOfDate count = none ↔ count = 0 := by
  unfold outOfDate
  split <;> simp [*]

/-- A path that does not read the text of an import leads to no written file. -/
theorem apart_of_written {files : List OutputFile} (w : OutputFile.Written files disk disk')
    (hfiles : ∀ f ∈ files, Text.StartsWithImport f.content) {path : String}
    (hread : ∀ text, disk'.reading path = some (.ok text) → ¬ Text.StartsWithImport text) {l : Location}
    (hl : disk'.locate path = .ok l) : ∀ p ∈ files.map (·.path), disk'.locate p ≠ .ok l := by
  intro p hp hpl
  obtain ⟨f, hf, rfl⟩ := List.mem_map.mp hp
  obtain ⟨l', g, hl', hlast, hnode⟩ := w.last f hf
  cases hl'.symm.trans hpl
  refine hread g.content ?_ (hfiles g hlast.mem)
  rw [Disk.reading_of_locate hl, hnode]
  rfl

theorem holdsText_of_written {files : List OutputFile} (w : OutputFile.Written files disk disk') :
    ∀ p ∈ files.map (·.path), ∀ l, disk'.locate p = .ok l → disk'.HoldsText l := by
  intro p hp l hl
  obtain ⟨f, hf, rfl⟩ := List.mem_map.mp hp
  obtain ⟨l', g, hl', -, hnode⟩ := w.last f hf
  cases hl'.symm.trans hl
  exact Or.inr ⟨g.content, hnode⟩

/-- Right after a run, no file is out of date when files with one location have one text but for white space at the
    end. -/
theorem status_of_written {files : List OutputFile} (w : OutputFile.Written files disk disk') :
    (∀ f ∈ files, f.status disk' = .upToDate) ↔
      ∀ f ∈ files, ∀ g ∈ files, disk'.locate f.path = disk'.locate g.path → f.agreesWith g.content = true := by
  -- Files with one location are all compared with the file that was written there last.
  have hlast : ∀ f ∈ files, ∀ g ∈ files, disk'.locate f.path = disk'.locate g.path → ∃ last ∈ files,
      disk'.locate f.path = disk'.locate last.path ∧
      (f.status disk' = .upToDate ↔ f.agreesWith last.content = true) ∧
      (g.status disk' = .upToDate ↔ g.agreesWith last.content = true) := by
    intro f hf g _ hsame
    obtain ⟨l, last, hl, hlast, hnode⟩ := w.last f hf
    refine ⟨last, hlast.mem, hl.trans hlast.locate.symm, ?_, ?_⟩
    · rw [OutputFile.status, Disk.reading_of_locate hl, hnode]
      simp [Disk.Node.reading]
    · rw [OutputFile.status, Disk.reading_of_locate (hsame ▸ hl), hnode]
      simp [Disk.Node.reading]
  constructor
  · intro h f hf g hg hsame
    obtain ⟨last, -, -, hfl, hgl⟩ := hlast f hf g hg hsame
    have hf' := of_decide_eq_true (hfl.mp (h f hf))
    have hg' := of_decide_eq_true (hgl.mp (h g hg))
    exact decide_eq_true (hg'.symm.trans hf')
  · intro h f hf
    obtain ⟨last, hmem, hsame, hfl, -⟩ := hlast f hf f hf rfl
    exact hfl.mpr (h f hf last hmem hsame)

/-- The readings of the document and of the configuration file are the text of no import. -/
theorem not_import_of_load (h : Document.ofReading s.input (disk.reading s.input) = .ok d) {text : String}
    (htext : disk.reading s.input = some (.ok text)) : ¬ Text.StartsWithImport text := by
  obtain ⟨text', htext', hparse⟩ := Document.ofReading_eq_ok h
  cases htext.symm.trans htext'
  exact fun himport => Document.parse_ne_ok himport d hparse

theorem not_import_of_settings (h : s.settingsOf (disk.reading s.configPath) = .ok settings) {text : String}
    (htext : disk.reading s.configPath = some (.ok text)) : ¬ Text.StartsWithImport text := by
  intro himport
  rcases Selection.settingsOf_eq_ok h with hnone | ⟨text', htext', hparse⟩
  · rw [htext] at hnone
    cases hnone
  · cases htext.symm.trans htext'
    rw [Toml.parse?_eq_none himport] at hparse
    cases hparse

/-- After a generation that did not fail and left what the document and the configuration file read, however the
    planned files are then edited, a validation counts those that are missing or differ from their text by more than
    white space at the end, and fails exactly when there are any. Right after the generation there are none exactly
    when planned files with one location agree, and so it is when names and suffix have no slash and the paths are
    distinct. -/
theorem validate_after_generate {report : Report}
    (hrun : (run (.generate s false) : StateM Disk _).run disk = (report, disk')) (hok : report.failure = none)
    (hinput : disk'.reading s.input = disk.reading s.input)
    (hconfig : disk'.reading s.configPath = disk.reading s.configPath) :
    ∃ settings d, (s.settings : StateM Disk _).run disk = (.ok settings, disk) ∧
      (Document.load s.input : StateM Disk _).run disk = (.ok d, disk) ∧
      (∀ disk'', Disk.Edited ((settings.plan d).files.map (·.path)) disk' disk'' →
        ((run (.validate s) : StateM Disk _).run disk'').1.failure =
          outOfDate ((settings.plan d).files.countP fun f => f.status disk'' ≠ .upToDate)) ∧
      (((run (.validate s) : StateM Disk _).run disk').1.failure = none ↔ ∀ f ∈ (settings.plan d).files,
        ∀ g ∈ (settings.plan d).files, disk'.locate f.path = disk'.locate g.path → f.agreesWith g.content = true) ∧
      ((∀ n ∈ d.modelNames ++ d.enumNames, '/' ∉ n.toList) → '/' ∉ settings.output.inputSuffix.toList →
        ((settings.plan d).files.map (·.path)).Nodup →
        ((run (.validate s) : StateM Disk _).run disk').1.failure = none) := by
  obtain ⟨settings, d, results, hsettings, hload, hwrite⟩ := run_generate_eq_ok hrun hok
  have hwritten := OutputFile.written_of_writeAll hwrite
  have himports : ∀ f ∈ (settings.plan d).files, Text.StartsWithImport f.content :=
    fun _ hf => Settings.startsWithImport_plan hf
  refine ⟨settings, d, hsettings, hload, ?_⟩
  rw [s.run_settings] at hsettings
  rw [Document.run_load] at hload
  have hs : s.settingsOf (disk.reading s.configPath) = .ok settings := (Prod.mk.inj hsettings).1
  have hd : Document.ofReading s.input (disk.reading s.input) = .ok d := (Prod.mk.inj hload).1
  have hverdict : ∀ disk'', Disk.Edited ((settings.plan d).files.map (·.path)) disk' disk'' →
      ((run (.validate s) : StateM Disk _).run disk'').1.failure =
        outOfDate ((settings.plan d).files.countP fun f => f.status disk'' ≠ .upToDate) := by
    intro disk'' hedited
    have kept := hedited.invariant (holdsText_of_written hwritten)
    -- No written file is read as the settings or the document, so an edit leaves both as they were.
    have hconfig' : disk''.reading s.configPath = disk.reading s.configPath :=
      (kept.reading_eq fun l hl => apart_of_written hwritten himports
        (fun text htext => not_import_of_settings hs (hconfig ▸ htext)) hl).trans hconfig
    have hinput' : disk''.reading s.input = disk.reading s.input :=
      (kept.reading_eq fun l hl => apart_of_written hwritten himports
        (fun text htext => not_import_of_load hd (hinput ▸ htext)) hl).trans hinput
    have hsettings'' : (s.settings : StateM Disk _).run disk'' = (.ok settings, disk'') := by
      rw [s.run_settings, hconfig', hs]
    have hload'' : (Document.load s.input : StateM Disk _).run disk'' = (.ok d, disk'') := by
      rw [Document.run_load, hinput', hd]
    exact failure_validate hsettings'' hload'' fun f hf => kept.reading_ne_error (List.mem_map_of_mem hf)
  have hright : ((run (.validate s) : StateM Disk _).run disk').1.failure = none ↔ ∀ f ∈ (settings.plan d).files,
      ∀ g ∈ (settings.plan d).files, disk'.locate f.path = disk'.locate g.path → f.agreesWith g.content = true := by
    rw [hverdict disk' .refl, outOfDate_eq_none_iff, List.countP_eq_zero, ← status_of_written hwritten]
    simp
  refine ⟨hverdict, hright, fun hnames hsuffix hpaths => hright.mpr fun f hf g hg hsame => ?_⟩
  obtain ⟨l, -, hl, -, -⟩ := hwritten.last f hf
  have hpath := Settings.path_eq_of_locate hnames hsuffix hf hg hl (hsame ▸ hl)
  rw [List.inj_on_of_nodup_map hpaths hf hg hpath]
  exact decide_eq_true rfl

/-! ### A document of one model -/

def singleModel : Document := ⟨[⟨"A", []⟩], []⟩

/-- A disk with that document, and with a directory that has the name of its model. -/
def singleModelDisk : Disk :=
  ⟨[(["work", "A"], .directory), (["work", "d.json"], .file (.text "[[[\"A\"]]]")), (["work"], .directory)], ["work"]⟩

/-- Generates the document's files into the working directory. -/
def intoHere (suffix : Option String) : Selection :=
  { input := "d.json", overrides := { output := some ".", inputSuffix := suffix } }

open Json in
theorem load_singleModel {disk : Disk} (h : disk.reading "d.json" = some (.ok "[[[\"A\"]]]")) :
    (Document.load "d.json" : StateM Disk _).run disk = (.ok singleModel, disk) := by
  have hread : Json.parse "[[[\"A\"]]]" = .ok (array [array [array [string "A"]]]) := by
    simp [Json.parse, Reading.run, Reading.start, Reading.step, Reading.takeValue, Reading.takeSeparator,
      Reading.opened, Reading.maxDepth, Reading.complete, Reading.close, Reading.finish, isSpace, scanToken,
      scanString]
  have hparse : Document.parse "[[[\"A\"]]]" = .ok singleModel := by
    rw [Document.parse, hread]
    rfl
  exact Document.run_load_of_parse h hparse

theorem settings_intoHere {disk : Disk} (h : disk.reading Settings.defaultPath = none) {suffix : Option String}
    {settings : Settings} (hs : (intoHere suffix).settingsOf none = .ok settings) :
    ((intoHere suffix).settings : StateM Disk _).run disk = (.ok settings, disk) := by
  have hnone : disk.reading (intoHere suffix).configPath = none := h
  rw [Selection.run_settings, hnone, hs]

/-- The disk with texts at two places in the working directory, one written after the other. -/
def singleModelDisk.after (name f name' g : String) : Disk :=
  (singleModelDisk.put ["work", name] (.file (.text f))).put ["work", name'] (.file (.text g))

/-- A file that is removed after a generation is the one that is out of date. -/
theorem validate_after_generate_removed :
    ∃ report disk', (run (.generate (intoHere none) false) : StateM Disk _).run singleModelDisk = (report, disk') ∧
      report.failure = none ∧ disk'.reading "d.json" = singleModelDisk.reading "d.json" ∧
      disk'.reading Settings.defaultPath = singleModelDisk.reading Settings.defaultPath ∧
      ((run (.validate (intoHere none)) : StateM Disk _).run disk').1.failure = none ∧
      ((run (.validate (intoHere none)) : StateM Disk _).run (disk'.erase ["work", "A.ts"])).1.failure =
        some (.validation "1 file(s) out of date") := by
  have hsettings : ((intoHere none).settings : StateM Disk _).run singleModelDisk =
      (.ok { output := { directory := "." } }, singleModelDisk) := settings_intoHere rfl rfl
  have hload : (Document.load "d.json" : StateM Disk _).run singleModelDisk = _ := load_singleModel rfl
  obtain ⟨f, g, hfiles⟩ : ∃ f g, (Settings.plan { output := { directory := "." } } singleModel).files =
      [⟨"./A.ts", f⟩, ⟨"./AInput.ts", g⟩] := ⟨_, _, rfl⟩
  have hfirst : singleModelDisk.write "./A.ts" (.text f) =
      .ok (singleModelDisk.put ["work", "A.ts"] (.file (.text f))) := rfl
  have hsecond : (singleModelDisk.put ["work", "A.ts"] (.file (.text f))).write "./AInput.ts" (.text g) =
      .ok (singleModelDisk.after "A.ts" f "AInput.ts" g) := rfl
  have hwrite : (OutputFile.writeAll false [⟨"./A.ts", f⟩, ⟨"./AInput.ts", g⟩] : StateM Disk _).run singleModelDisk =
      _ := OutputFile.run_writeAll_of_parent (by decide : Path.parent? "./A.ts" = some ".") (by decide) hfirst
    (OutputFile.run_writeAll_of_parent (by decide : Path.parent? "./AInput.ts" = some ".") rfl hsecond rfl)
  rw [← hfiles] at hwrite
  have hrun := run_generate hsettings hload hwrite
  obtain ⟨settings, d, hsettings', hload', hverdict, -, hright⟩ := validate_after_generate hrun rfl rfl rfl
  cases (Prod.mk.inj (hsettings.symm.trans hsettings')).1
  cases (Prod.mk.inj (hload.symm.trans hload')).1
  refine ⟨_, _, hrun, rfl, rfl, rfl, hright (by decide) (by decide) ?_, ?_⟩
  · rw [hfiles]
    exact (by decide : ["./A.ts", "./AInput.ts"].Nodup)
  · have hmem : "./A.ts" ∈ (Settings.plan { output := { directory := "." } } singleModel).files.map (·.path) := by
      rw [hfiles]
      exact List.mem_cons_self
    have hlocate : (singleModelDisk.after "A.ts" f "AInput.ts" g).locate "./A.ts" = .ok ["work", "A.ts"] := rfl
    have hgone : ((singleModelDisk.after "A.ts" f "AInput.ts" g).erase ["work", "A.ts"]).reading "./A.ts" = none := rfl
    have hkept : ((singleModelDisk.after "A.ts" f "AInput.ts" g).erase ["work", "A.ts"]).reading "./AInput.ts" =
      some (.ok g) := rfl
    have hcount : [⟨"./A.ts", f⟩, ⟨"./AInput.ts", g⟩].countP (fun file : OutputFile =>
        file.status ((singleModelDisk.after "A.ts" f "AInput.ts" g).erase ["work", "A.ts"]) ≠ .upToDate) = 1 := by
      simp [OutputFile.status, hgone, hkept, OutputFile.agreesWith]
    rw [hverdict _ (.remove .refl hmem hlocate), hfiles, hcount]
    rfl

/-- The two files of a model differ by more than white space at the end. -/
theorem stale_singleModel (o o' : ObjectSchema) :
    OutputFile.agreesWith ⟨"./A.ts", (Emitter.ofOptions {}).modelFile "A" .canonical o [Options.libraryImport {}]⟩
      ((Emitter.ofOptions {}).modelFile "A" .input o' [Options.libraryImport {}]) = false := by
  have hsplit : ∀ (v : Variant) (o : ObjectSchema),
      (Emitter.ofOptions {}).modelFile "A" v o [Options.libraryImport {}] =
        (Options.libraryImport {} ++ "\n\n" ++ "export const " ++ "A") ++ (v.exportSuffix ++ " = " ++
          ((Emitter.ofOptions {}).object o 0 ++ "\n\n" ++ Emitter.staticType ("A" ++ v.exportSuffix) ++ "\n")) := by
    intro v o
    have hfile : (Emitter.ofOptions {}).modelFile "A" v o [Options.libraryImport {}] =
      Options.libraryImport {} ++ "\n\n" ++ ("export const " ++ ("A" ++ v.exportSuffix) ++ " = " ++
        (Emitter.ofOptions {}).object o 0 ++ "\n\n" ++ Emitter.staticType ("A" ++ v.exportSuffix)) ++ "\n" := rfl
    rw [hfile]
    simp only [String.append_assoc]
  refine decide_eq_false ?_
  rw [hsplit, hsplit]
  exact Text.trimEnd_ne (by rw [String.toList_append]; rfl) (by rw [String.toList_append]; rfl)
    (by decide : Text.isBlank 'I' = false) (by decide : 'I' ≠ ' ')

/-- A suffix that leads out of a directory gives two files one location under different paths: the second text
    replaces the first, and the first file is stale right after it was generated. -/
theorem validate_stale_after_generate :
    ∃ report disk' settings d,
      (run (.generate (intoHere (some "/../A")) false) : StateM Disk _).run singleModelDisk = (report, disk') ∧
      report.failure = none ∧
      ((intoHere (some "/../A")).settings : StateM Disk _).run singleModelDisk = (.ok settings, singleModelDisk) ∧
      (Document.load "d.json" : StateM Disk _).run singleModelDisk = (.ok d, singleModelDisk) ∧
      (∀ n ∈ d.modelNames ++ d.enumNames, '/' ∉ n.toList) ∧
      (settings.plan d).files.map (·.path) = ["./A.ts", "./A/../A.ts"] ∧
      disk'.reading "d.json" = singleModelDisk.reading "d.json" ∧
      disk'.reading Settings.defaultPath = singleModelDisk.reading Settings.defaultPath ∧
      ((run (.validate (intoHere (some "/../A"))) : StateM Disk _).run disk').1.failure =
        some (.validation "1 file(s) out of date") := by
  have hsettings : ∀ disk : Disk, disk.reading Settings.defaultPath = none →
      ((intoHere (some "/../A")).settings : StateM Disk _).run disk =
        (.ok { output := { directory := ".", inputSuffix := "/../A" } }, disk) :=
    fun _ h => settings_intoHere h rfl
  have hload : (Document.load "d.json" : StateM Disk _).run singleModelDisk = _ := load_singleModel rfl
  obtain ⟨f, g, hfiles, hstale⟩ : ∃ f g,
      (Settings.plan { output := { directory := ".", inputSuffix := "/../A" } } singleModel).files =
        [⟨"./A.ts", f⟩, ⟨"./A/../A.ts", g⟩] ∧ OutputFile.agreesWith ⟨"./A.ts", f⟩ g = false :=
    ⟨_, _, rfl, stale_singleModel ⟨"A_model", [], false⟩ ⟨"A_input_model", [], false⟩⟩
  have hfirst : singleModelDisk.write "./A.ts" (.text f) =
      .ok (singleModelDisk.put ["work", "A.ts"] (.file (.text f))) := rfl
  have hsecond : (singleModelDisk.put ["work", "A.ts"] (.file (.text f))).write "./A/../A.ts" (.text g) =
      .ok (singleModelDisk.after "A.ts" f "A.ts" g) := rfl
  have hwrite : (OutputFile.writeAll false [⟨"./A.ts", f⟩, ⟨"./A/../A.ts", g⟩] : StateM Disk _).run singleModelDisk =
      _ := OutputFile.run_writeAll_of_parent (by decide : Path.parent? "./A.ts" = some ".") (by decide) hfirst
    (OutputFile.run_writeAll_of_parent (by decide : Path.parent? "./A/../A.ts" = some "./A/..") rfl hsecond rfl)
  rw [← hfiles] at hwrite
  refine ⟨_, _, _, _, run_generate (hsettings _ rfl) hload hwrite, rfl, hsettings _ rfl, hload, by decide, ?_, rfl,
    rfl, ?_⟩
  · rw [hfiles]
    rfl
  · have hreplaced : (singleModelDisk.after "A.ts" f "A.ts" g).reading "./A.ts" = some (.ok g) := rfl
    have hlast : (singleModelDisk.after "A.ts" f "A.ts" g).reading "./A/../A.ts" = some (.ok g) := rfl
    have hverdict := failure_validate (hsettings (singleModelDisk.after "A.ts" f "A.ts" g) rfl) (load_singleModel rfl)
    have hcount : [⟨"./A.ts", f⟩, ⟨"./A/../A.ts", g⟩].countP (fun file : OutputFile =>
        file.status (singleModelDisk.after "A.ts" f "A.ts" g) ≠ .upToDate) = 1 := by
      have hfirst : OutputFile.status (singleModelDisk.after "A.ts" f "A.ts" g) ⟨"./A.ts", f⟩ = .stale := by
        simp [OutputFile.status, hreplaced, hstale]
      have hsecond : OutputFile.status (singleModelDisk.after "A.ts" f "A.ts" g) ⟨"./A/../A.ts", g⟩ = .upToDate := by
        simp [OutputFile.status, hlast, OutputFile.agreesWith]
      simp [hfirst, hsecond]
    rw [hverdict, hfiles, hcount]
    · rfl
    · rw [hfiles]
      simp [hreplaced, hlast]

end Command

end SchemaForge
