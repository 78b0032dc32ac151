import SchemaForge.Proofs.Command.Validation

/-! What commands do to a disk. A validation, a dry run and a generation that does not load its settings and its
    document only read it. A generation that writes goes through its plan file by file, and stands as far as it came
    when one cannot be written. A new configuration file is all that `init` changes. -/

namespace SchemaForge

/-! ### Programs that only read -/

/-- The program leaves every disk as it is. -/
def ReadsOnly {α : Type} (program : StateM Disk α) : Prop := ∀ disk : Disk, (program.run disk).2 = disk

namespace ReadsOnly
variable {α β : Type} {program : StateM Disk α}

theorem pure (a : α) : ReadsOnly (Pure.pure a : StateM Disk α) := fun _ => rfl

theorem bind {next : α → StateM Disk β} (h : ReadsOnly program) (hnext : ∀ a, ReadsOnly (next a)) :
    ReadsOnly (program >>= next) := fun disk => (hnext _ _).trans (h disk)

theorem of_run {result : Disk → α} (h : ∀ disk, program.run disk = (result disk, disk)) : ReadsOnly program :=
  fun disk => by rw [h]

theorem check (f : OutputFile) : ReadsOnly (f.check : StateM Disk _) := by
  have hholds : ReadsOnly (FileStore.holds f.path : StateM Disk Bool) := fun _ => rfl
  have hread : ReadsOnly (FileStore.readText f.path : StateM Disk _) := fun _ => rfl
  refine bind hholds fun there => ?_
  cases there with
  | false => exact pure _
  | true =>
    refine bind hread fun text => ?_
    cases text with
    | error e => exact pure _
    | ok text => exact pure _

theorem checkAll (files : List OutputFile) : ReadsOnly (Command.checkAll files : StateM Disk _) := by
  induction files with
  | nil => exact pure _
  | cons f fs ih =>
    refine bind (check f) fun status => ?_
    cases status with
    | error e => exact pure _
    | ok status =>
      refine bind ih fun rest => ?_
      cases rest with
      | error e => exact pure _
      | ok lines => exact pure _

theorem validate (s : Selection) : ReadsOnly (Command.run (.validate s) : StateM Disk _) := by
  refine bind (of_run s.run_settings) fun settings => ?_
  cases settings with
  | error e => exact pure _
  | ok settings =>
    refine bind (of_run (Document.run_load s.input)) fun d => ?_
    cases d with
    | error e => exact pure _
    | ok d =>
      refine bind (checkAll _) fun outdated => ?_
      rcases outdated with e | lines
      · exact pure _
      · cases lines with
        | nil => exact pure _
        | cons line lines => exact pure _

end ReadsOnly

/-! ### What a selection loads -/

/-- The settings and the document that a command loads from a disk. -/
def Selection.Loads (s : Selection) (disk : Disk) (settings : Settings) (d : Document) : Prop :=
  (s.settings : StateM Disk _).run disk = (.ok settings, disk) ∧
    (Document.load s.input : StateM Disk _).run disk = (.ok d, disk)

theorem Selection.loads_iff {s : Selection} {disk : Disk} {settings : Settings} {d : Document} :
    s.Loads disk settings d ↔ s.settingsOf (disk.reading s.configPath) = .ok settings ∧
      Document.ofReading s.input (disk.reading s.input) = .ok d := by
  rw [Loads, run_settings, Document.run_load, Prod.mk.injEq, Prod.mk.injEq]
  simp only [and_true]

namespace Command
variable {disk disk' : Disk} {s : Selection}

/-! ### Effects -/

/-- How the writing of planned files ends: all are written, or those before one that cannot be, which the failure
    names. -/
def Wrote (files : List OutputFile) (disk disk' : Disk) (failure : Option Failure) : Prop :=
  (failure = none ∧ OutputFile.Progress files files disk disk') ∨
    ∃ before f after e between, files = before ++ f :: after ∧ failure = some (.write e) ∧
      OutputFile.Progress before before disk between ∧ f.Refused between e disk' ∧
      OutputFile.Progress before (before ++ [f]) disk disk'

/-- What a command does to a disk, and what it says of it. -/
def Effect (disk : Disk) (report : Report) (disk' : Disk) : Command → Prop
  | .validate _ => disk' = disk
  | .generate s dryRun =>
    ((¬ ∃ settings d, s.Loads disk settings d) → disk' = disk ∧ report.failure ≠ none) ∧
    ∀ settings d, s.Loads disk settings d →
      if dryRun then
        disk' = disk ∧
          report = generationReport s settings d ((settings.plan d).files.map fun f => .preview f.path f.content)
      else Wrote (settings.plan d).files disk disk' report.failure
  | .init output force =>
    (disk' = disk ∧ report.failure ≠ none ∧ ((disk.holds output = true ∧ force = false) ∨
      ∃ e, disk.write output (.text Settings.defaultText) = .error e)) ∨
    ((disk.holds output = false ∨ force = true) ∧ report.failure = none ∧ ∃ l, disk.locate output = .ok l ∧
      disk.node? l ≠ some .directory ∧ disk' = disk.put l (.file (.text Settings.defaultText)))

theorem generate_without_loading (dryRun : Bool) (h : ¬ ∃ settings d, s.Loads disk settings d) {report : Report}
    (hrun : (run (.generate s dryRun) : StateM Disk _).run disk = (report, disk')) :
    disk' = disk ∧ report.failure ≠ none := by
  rw [run_generate_of_readings] at hrun
  rcases hs : s.settingsOf (disk.reading s.configPath) with e | settings
  · rw [hs] at hrun
    cases hrun
    exact ⟨rfl, fun hnone => (nomatch hnone)⟩
  · rcases hd : Document.ofReading s.input (disk.reading s.input) with e | d
    · simp only [hs, hd] at hrun
      cases hrun
      exact ⟨rfl, fun hnone => (nomatch hnone)⟩
    · exact absurd ⟨settings, d, Selection.loads_iff.mpr ⟨hs, hd⟩⟩ h

theorem generate_dry {settings : Settings} {d : Document} (h : s.Loads disk settings d) :
    (run (.generate s true) : StateM Disk _).run disk =
      (generationReport s settings d ((settings.plan d).files.map fun f => .preview f.path f.content), disk) := by
  obtain ⟨hs, hd⟩ := Selection.loads_iff.mp h
  rw [run_generate_of_readings, hs]
  simp only [hd, OutputFile.run_writeAll_dry]

theorem generate_wrote {settings : Settings} {d : Document} (h : s.Loads disk settings d) {report : Report}
    (hrun : (run (.generate s false) : StateM Disk _).run disk = (report, disk')) :
    Wrote (settings.plan d).files disk disk' report.failure := by
  obtain ⟨hs, hd⟩ := Selection.loads_iff.mp h
  rw [run_generate_of_readings, hs] at hrun
  simp only [hd] at hrun
  rcases hw : (OutputFile.writeAll false (settings.plan d).files : StateM Disk _).run disk with ⟨e | results, _⟩
  · rw [hw] at hrun
    cases hrun
    obtain ⟨before, f, after, between, hfiles, hbetween, hrefused, hprogress⟩ := OutputFile.writeAll_effect hw
    exact Or.inr ⟨before, f, after, e, between, hfiles, rfl, hbetween, hrefused, hprogress⟩
  · rw [hw] at hrun
    cases hrun
    exact Or.inl ⟨rfl, OutputFile.writeAll_effect hw⟩

theorem run_init (output : String) (force : Bool) (disk : Disk) : (run (.init output force) : StateM Disk _).run disk =
    if disk.holds output = true ∧ force = false then
      (⟨["Error: Configuration file already exists: " ++ output, "  Use --force to overwrite"],
        some (.validation "Configuration file already exists")⟩, disk)
    else
      match disk.write output (.text Settings.defaultText) with
      | .ok disk' => (⟨["✓ Created configuration file: " ++ output], none⟩, disk')
      | .error e => (⟨[], some (.io e)⟩, disk) := by
  refine (StateT.run_bind _ _ _ : (runInit output force : StateM Disk _).run disk = _).trans ?_
  have hholds : (FileStore.holds output : StateM Disk Bool).run disk = (disk.holds output, disk) := rfl
  have hwrite : (FileStore.writeText output Settings.defaultText : StateM Disk _).run disk =
      match disk.write output (.text Settings.defaultText) with
      | .ok disk' => (.ok (), disk')
      | .error e => (.error e, disk) := rfl
  rw [hholds]
  change StateT.run (m := Id) (if disk.holds output = true ∧ force = false then _ else _) disk = _
  by_cases hrefused : disk.holds output = true ∧ force = false
  · rw [if_pos hrefused, if_pos hrefused]
    rfl
  · rw [if_neg hrefused, if_neg hrefused]
    refine (StateT.run_bind _ _ _ : _ = _).trans ?_
    rw [hwrite]
    cases disk.write output (.text Settings.defaultText) with
    | error e => rfl
    | ok disk' => rfl

theorem init_effect (output : String) (force : Bool) {report : Report}
    (hrun : (run (.init output force) : StateM Disk _).run disk = (report, disk')) :
    Effect disk report disk' (.init output force) := by
  rw [run_init] at hrun
  by_cases hrefused : disk.holds output = true ∧ force = false
  · rw [if_pos hrefused] at hrun
    cases hrun
    exact Or.inl ⟨rfl, fun hnone => (nomatch hnone), Or.inl hrefused⟩
  · rw [if_neg hrefused] at hrun
    rcases hw : disk.write output (.text Settings.defaultText) with e | written
    · rw [hw] at hrun
      cases hrun
      exact Or.inl ⟨rfl, fun hnone => (nomatch hnone), Or.inr ⟨e, hw⟩⟩
    · rw [hw] at hrun
      cases hrun
      rw [not_and_or, Bool.not_eq_true, Bool.not_eq_false] at hrefused
      exact Or.inr ⟨hrefused, rfl, Disk.write_eq_ok hw⟩

/-- Commands change only what they plan. A validation, a dry run and a generation that loads nothing leave the disk as
    it was, and the dry run shows every planned file. A generation that writes leaves the text of the last planned file
    at every location that planned paths lead to, and a failure leaves the files before the one it names so; beyond
    them it only makes directories on the way to files that it tried. A new configuration file is put at its path if
    nothing is there or if it is forced. -/
theorem run_effect (c : Command) (disk : Disk) :
    c.Effect disk ((run c : StateM Disk _).run disk).1 ((run c : StateM Disk _).run disk).2 := by
  cases c with
  | validate s => exact ReadsOnly.validate s disk
  | init output force => exact init_effect output force rfl
  | generate s dryRun =>
    refine ⟨fun h => generate_without_loading dryRun h rfl, fun settings d h => ?_⟩
    cases dryRun with
    | true =>
      rw [generate_dry h]
      exact ⟨rfl, rfl⟩
    | false => exact generate_wrote h rfl

/-! ### A plan that is interrupted -/

/-- Enums whose names lead to one location in three ways, and one whose file is a directory on the way. -/
def crossing : Document := ⟨[], [⟨"A", []⟩, ⟨"B.ts/../A", []⟩, ⟨"X", []⟩, ⟨"B", []⟩, ⟨"X.ts/../A", []⟩]⟩

def crossingText : String := "[[],[[\"A\"],[\"B.ts/../A\"],[\"X\"],[\"B\"],[\"X.ts/../A\"]]]"

/-- A disk with that document, and with a directory where the third file is to be. -/
def crossingDisk : Disk :=
  ⟨[(["work", "X.ts"], .directory), (["work", "d.json"], .file (.text crossingText)), (["work"], .directory)], ["work"]⟩

open Json in
theorem loads_crossing : (intoHere none).Loads crossingDisk { output := { directory := "." } } crossing := by
  have hread : Json.parse crossingText = .ok (array [array [], array [array [string "A"], array [string "B.ts/../A"],
      array [string "X"], array [string "B"], array [string "X.ts/../A"]]]) := by
    simp [crossingText, Json.parse, Reading.run, Reading.start, Reading.step, Reading.takeValue,
      Reading.takeSeparator, Reading.opened, Reading.maxDepth, Reading.complete, Reading.close, Reading.finish,
      isSpace, scanToken, scanString]
  have hparse : Document.parse crossingText = .ok crossing := by
    rw [Document.parse, hread]
    rfl
  exact ⟨settings_intoHere rfl rfl, Document.run_load_of_parse rfl hparse⟩

theorem files_crossing : ∃ f g h k m, f ≠ g ∧ (Settings.plan { output := { directory := "." } } crossing).files =
    [⟨"./A.ts", f⟩, ⟨"./B.ts/../A.ts", g⟩, ⟨"./X.ts", h⟩, ⟨"./B.ts", k⟩, ⟨"./X.ts/../A.ts", m⟩] := by
  refine ⟨_, _, _, _, _, ?_, rfl⟩
  decide +kernel

/-- The disk with the first file, and with the directory that the second one goes through. -/
def crossingDisk.between (f : String) : Disk :=
  (crossingDisk.put ["work", "A.ts"] (.file (.text f))).put ["work", "B.ts"] .directory

/-- The disk when the second file is in the place of the first. -/
def crossingDisk.after (f g : String) : Disk := (between f).put ["work", "A.ts"] (.file (.text g))

theorem makeDirectories_crossing (f : String) : (FileStore.makeDirectories "./B.ts/.." : StateM Disk _).run
    (crossingDisk.put ["work", "A.ts"] (.file (.text f))) = (.ok (), crossingDisk.between f) := by
  have hmissing : (crossingDisk.put ["work", "A.ts"] (.file (.text f))).makeDirectory "./B.ts/.." =
      .error .notFound := rfl
  have hmade : (crossingDisk.put ["work", "A.ts"] (.file (.text f))).makeDirectory "./B.ts" =
      .ok (crossingDisk.between f) := rfl
  have hagain : (crossingDisk.between f).makeDirectory "./B.ts/.." = .error .alreadyExists := rfl
  rw [FileStore.makeDirectories, Path.ancestors_of_parent (by decide : Path.parent? "./B.ts/.." = some "./B.ts"),
    Path.ancestors_of_parent (by decide : Path.parent? "./B.ts" = some ".")]
  exact FileStore.run_makeNested_of_there (by decide) hmissing (FileStore.run_makeNested_of_ok (by decide) hmade) hagain
    rfl

theorem write_crossing (f g : String) : (OutputFile.write false ⟨"./B.ts/../A.ts", g⟩ : StateM Disk _).run
      (crossingDisk.put ["work", "A.ts"] (.file (.text f))) =
    (.ok (.written "./B.ts/../A.ts" g.utf8ByteSize), crossingDisk.after f g) := by
  have hempty : "./B.ts/..".isEmpty = false := by decide
  have hmissing : (crossingDisk.put ["work", "A.ts"] (.file (.text f))).holds "./B.ts/.." = false := rfl
  have hput : (crossingDisk.between f).write "./B.ts/../A.ts" (.text g) = .ok (crossingDisk.after f g) := rfl
  rw [OutputFile.run_write, OutputFile.run_prepare (by decide : Path.parent? "./B.ts/../A.ts" = some "./B.ts/.."),
    hempty, hmissing, if_neg (by decide), makeDirectories_crossing]
  simp only [hput]

theorem writeAll_crossing (f g h : String) (files : List OutputFile) :
    (OutputFile.writeAll false (⟨"./A.ts", f⟩ :: ⟨"./B.ts/../A.ts", g⟩ :: ⟨"./X.ts", h⟩ :: files) :
      StateM Disk _).run crossingDisk = (.error (.file "./X.ts" .isDirectory), crossingDisk.after f g) := by
  have hput : crossingDisk.write "./A.ts" (.text f) =
      .ok (crossingDisk.put ["work", "A.ts"] (.file (.text f))) := rfl
  have hfirst : (OutputFile.write false ⟨"./A.ts", f⟩ : StateM Disk _).run crossingDisk = _ :=
    OutputFile.run_write_of_parent (by decide : Path.parent? "./A.ts" = some ".") rfl hput
  have hhere : (crossingDisk.after f g).holds "." = true := rfl
  have hrefused : (crossingDisk.after f g).write "./X.ts" (.text h) = .error .isDirectory := rfl
  have hthird : (OutputFile.write false ⟨"./X.ts", h⟩ : StateM Disk _).run (crossingDisk.after f g) =
      (.error (.file "./X.ts" .isDirectory), crossingDisk.after f g) := by
    rw [OutputFile.run_write, OutputFile.run_prepare (by decide : Path.parent? "./X.ts" = some "."),
      if_pos (Or.inr hhere)]
    simp only [hrefused]
  rw [OutputFile.run_writeAll_cons, hfirst]
  simp only [OutputFile.run_writeAll_cons, write_crossing, hthird]

/-- What the run plans, and how it ends. -/
theorem run_crossing : ∃ report f g h k m,
    (Settings.plan { output := { directory := "." } } crossing).files =
      [⟨"./A.ts", f⟩, ⟨"./B.ts/../A.ts", g⟩, ⟨"./X.ts", h⟩, ⟨"./B.ts", k⟩, ⟨"./X.ts/../A.ts", m⟩] ∧ f ≠ g ∧
    (run (.generate (intoHere none) false) : StateM Disk _).run crossingDisk = (report, crossingDisk.after f g) ∧
    report.failure = some (.write (.file "./X.ts" .isDirectory)) := by
  obtain ⟨f, g, h, k, m, hne, hfiles⟩ := files_crossing
  obtain ⟨hs, hd⟩ := Selection.loads_iff.mp loads_crossing
  have hrun := run_generate_of_readings (intoHere none) false crossingDisk
  simp only [hs, hd, hfiles, writeAll_crossing] at hrun
  exact ⟨_, f, g, h, k, m, hfiles, hne, hrun, rfl⟩

/-- The run stands as far as it came before the file that its failure names. -/
theorem run_effect_crossing : ∃ settings d before f after, (intoHere none).Loads crossingDisk settings d ∧
    (settings.plan d).files = before ++ f :: after ∧ f.path = "./X.ts" ∧
    ((run (.generate (intoHere none) false) : StateM Disk _).run crossingDisk).1.failure =
      some (.write (.file f.path .isDirectory)) ∧
    OutputFile.Progress before (before ++ [f]) crossingDisk
      ((run (.generate (intoHere none) false) : StateM Disk _).run crossingDisk).2 := by
  obtain ⟨report, f, g, h, k, m, -, -, hrun, hfailure⟩ := run_crossing
  have heffect := (run_effect (.generate (intoHere none) false) crossingDisk).2 _ _ loads_crossing
  rw [hrun] at heffect ⊢
  rcases heffect with ⟨hnone, -⟩ | ⟨before, file, after, e, between, hplan, he, -, hrefused, hprogress⟩
  · cases hfailure.symm.trans hnone
  · have hnamed := Failure.write.inj (Option.some.inj (hfailure.symm.trans he))
    cases hrefused with
    | directory => cases hnamed
    | file =>
      obtain ⟨hpath, rfl⟩ := WriteError.file.inj hnamed
      exact ⟨_, _, before, file, after, loads_crossing, hplan, hpath.symm, he, hprogress⟩

/-- The third file cannot be written. The path of the first then reads the text of the second, the path of the fourth
    is a directory on the way to the second, and the path of the fifth reads what it did not before. -/
theorem generate_crossing : ∃ report disk' f g h k m,
    (intoHere none).Loads crossingDisk { output := { directory := "." } } crossing ∧
    (Settings.plan { output := { directory := "." } } crossing).files =
      [⟨"./A.ts", f⟩, ⟨"./B.ts/../A.ts", g⟩, ⟨"./X.ts", h⟩, ⟨"./B.ts", k⟩, ⟨"./X.ts/../A.ts", m⟩] ∧
    (run (.generate (intoHere none) false) : StateM Disk _).run crossingDisk = (report, disk') ∧
    report.failure = some (.write (.file "./X.ts" .isDirectory)) ∧
    f ≠ g ∧ disk'.readText "./A.ts" = .ok g ∧
    crossingDisk.holds "./B.ts" = false ∧ disk'.holdsDirectory "./B.ts" = true ∧
    crossingDisk.holds "./X.ts/../A.ts" = false ∧ disk'.readText "./X.ts/../A.ts" = .ok g := by
  obtain ⟨report, f, g, h, k, m, hfiles, hne, hrun, hfailure⟩ := run_crossing
  exact ⟨report, _, f, g, h, k, m, loads_crossing, hfiles, hrun, hfailure, hne, rfl, rfl, rfl, rfl, rfl⟩

end Command

end SchemaForge
