import Mathlib.Data.List.Perm.Basic
import SchemaForge.Plan
import SchemaForge.Proofs.Files.Writing
import SchemaForge.Proofs.Generation.Pass

/-! Whether the files of a plan overwrite each other. Every path is made from a stem in one directory, and
    the stems are the names of the entities and, for input, the models' names with the suffix. Stems without
    slashes lead to locations of their own, so a file is lost only when the name of an entity is that of a
    model with the suffix. -/

namespace SchemaForge

/-! ### Paths and stems -/

def Settings.fileName (stem : String) : String := stem ++ "." ++ Generation.fileExtension

namespace Settings
variable {s : Settings} {d : Document} {a b : String}

theorem fileName_inj : fileName a = fileName b ↔ a = b := by
  rw [fileName, fileName, String.append_left_inj, String.append_left_inj]

theorem isAbsolute_fileName (stem : String) : Path.isAbsolute (fileName stem) = Path.isAbsolute stem := by
  by_cases h : stem = ""
  · rw [h]
    rfl
  · rw [fileName, String.append_assoc, Path.isAbsolute_append h]

theorem slash_not_mem_fileName (h : '/' ∉ a.toList) : '/' ∉ (fileName a).toList := by
  have hend : '/' ∉ ("." ++ Generation.fileExtension).toList := by decide
  rw [fileName, String.append_assoc, String.toList_append, List.mem_append, not_or]
  exact ⟨h, hend⟩

/-- The name of a generated file is none of those that stand for a directory. -/
theorem fileName_not_idle (stem : String) : fileName stem ∉ ["", ".", ".."] := by
  have hlast : (fileName stem).toList.getLast? = some 's' := by
    have hend : ("." ++ Generation.fileExtension).toList = ['.', 't', 's'] := by decide
    rw [fileName, String.append_assoc, String.toList_append, hend, List.getLast?_append]
    rfl
  intro h
  rcases List.mem_cons.mp h with h | h
  · rw [h] at hlast
    cases hlast
  · rcases List.mem_cons.mp h with h | h
    · rw [h] at hlast
      exact absurd hlast (by decide)
    · rw [List.mem_singleton.mp h] at hlast
      exact absurd hlast (by decide)

theorem outputPath_of_absolute (h : Path.isAbsolute a = true) : s.outputPath a = fileName a :=
  Path.join_of_absolute ((isAbsolute_fileName a).trans h)

theorem outputPath_of_relative (h : Path.isAbsolute a = false) :
    s.outputPath a = Path.lead s.output.directory ++ fileName a :=
  Path.join_of_relative ((isAbsolute_fileName a).trans h)

theorem outputPath_inj (ha : Path.isAbsolute a = false) (hb : Path.isAbsolute b = false) :
    s.outputPath a = s.outputPath b ↔ a = b := by
  rw [outputPath_of_relative ha, outputPath_of_relative hb, String.append_right_inj, fileName_inj]

/-- A name without slashes and a suffix are a relative stem unless the name is empty. -/
theorem isAbsolute_stem {suffix : String} (h : '/' ∉ a.toList) :
    Path.isAbsolute (a ++ suffix) = true ↔ a = "" ∧ Path.isAbsolute suffix = true := by
  by_cases ha : a = ""
  · rw [ha, String.empty_append]
    exact ⟨fun h => ⟨rfl, h⟩, fun h => h.2⟩
  · rw [Path.isAbsolute_append ha, Path.isAbsolute_of_no_slash h]
    exact ⟨fun h => (nomatch h), fun h => absurd h.1 ha⟩

theorem inputPath_inj (ha : '/' ∉ a.toList) (hb : '/' ∉ b.toList) {suffix : String}
    (h : s.outputPath (a ++ suffix) = s.outputPath (b ++ suffix)) : a = b := by
  -- An absolute stem is the bare suffix, and a relative one has a path that is longer than it.
  have hmixed : ∀ {x y : String}, '/' ∉ x.toList → Path.isAbsolute (x ++ suffix) = true →
      Path.isAbsolute (y ++ suffix) = false → s.outputPath (x ++ suffix) = s.outputPath (y ++ suffix) → x = y := by
    intro x y hx habs hrel he
    obtain ⟨rfl, -⟩ := (isAbsolute_stem hx).mp habs
    have hlonger : fileName (y ++ suffix) = y ++ fileName suffix := by
      simp only [fileName, String.append_assoc]
    rw [outputPath_of_absolute habs, outputPath_of_relative hrel, hlonger, String.empty_append,
      ← String.append_assoc, eq_comm, String.append_eq_right_iff, String.append_eq_empty_iff] at he
    exact he.2.symm
  cases hastem : Path.isAbsolute (a ++ suffix) with
  | true =>
    cases hbstem : Path.isAbsolute (b ++ suffix) with
    | true => rw [((isAbsolute_stem ha).mp hastem).1, ((isAbsolute_stem hb).mp hbstem).1]
    | false => exact hmixed ha hastem hbstem h
  | false =>
    cases hbstem : Path.isAbsolute (b ++ suffix) with
    | true => exact (hmixed hb hbstem hastem h.symm).symm
    | false => exact (String.append_left_inj _).mp ((outputPath_inj hastem hbstem).mp h)

/-- A canonical file has the path of an input file when its entity is named like the model with the suffix, or
    when the suffix alone is an absolute path. -/
theorem outputPath_eq_inputPath_iff (ha : '/' ∉ a.toList) (hb : '/' ∉ b.toList) (suffix : String) :
    s.outputPath a = s.outputPath (b ++ suffix) ↔
      a = b ++ suffix ∨ b = "" ∧ Path.isAbsolute suffix = true ∧ s.outputPath a = fileName suffix := by
  have harel := Path.isAbsolute_of_no_slash ha
  cases hstem : Path.isAbsolute (b ++ suffix) with
  | true =>
    obtain ⟨rfl, hsuffix⟩ := (isAbsolute_stem hb).mp hstem
    have hne : a ≠ suffix := by
      rintro rfl
      rw [harel] at hsuffix
      cases hsuffix
    rw [String.empty_append, outputPath_of_absolute hsuffix]
    exact ⟨fun h => Or.inr ⟨rfl, hsuffix, h⟩, fun h => h.elim (fun h => absurd h hne) fun h => h.2.2⟩
  | false =>
    have hnot : ¬ (b = "" ∧ Path.isAbsolute suffix = true) := by
      intro h
      rw [(isAbsolute_stem hb).mpr h] at hstem
      cases hstem
    rw [outputPath_inj harel hstem]
    exact ⟨Or.inl, fun h => h.elim id fun h => absurd ⟨h.1, h.2.1⟩ hnot⟩

/-! ### The paths of a plan -/

theorem paths_plan (s : Settings) (d : Document) : (s.plan d).files.map (·.path) =
    d.modelNames.flatMap (fun n => [s.outputPath n, s.outputPath (n ++ s.output.inputSuffix)]) ++
      d.enumNames.map s.outputPath := by
  have hnames : d.modelNames = d.placedModels.map fun p => p.1.name := by
    rw [Document.modelNames, ← Document.map_fst_placed d d.models 0, List.map_map]
    rfl
  have hplan : (s.plan d).files = (d.generate s.generator).flatMap s.filesOf := rfl
  rw [hplan, Document.generate_eq, List.flatMap_append, List.map_append, List.flatMap_map, List.flatMap_map,
    List.map_flatMap, List.map_flatMap, hnames, List.flatMap_map]
  congr 1
  rw [Document.enumNames, List.map_map]
  exact List.map_eq_flatMap.symm

/-- In a plan over distinct names, paths are distinct when no input file has the path of a canonical one. -/
theorem nodup_paths_iff (hd : (d.modelNames ++ d.enumNames).Nodup)
    (hslash : ∀ n ∈ d.modelNames ++ d.enumNames, '/' ∉ n.toList) :
    ((s.plan d).files.map (·.path)).Nodup ↔ ∀ n ∈ d.modelNames ++ d.enumNames, ∀ m ∈ d.modelNames,
      s.outputPath n ≠ s.outputPath (m ++ s.output.inputSuffix) := by
  have hmodel : ∀ m ∈ d.modelNames, '/' ∉ m.toList := fun m hm => hslash m (List.mem_append_left _ hm)
  have hcanonical : ((d.modelNames ++ d.enumNames).map s.outputPath).Nodup := by
    refine hd.map_on fun a ha b hb h => ?_
    exact (outputPath_inj (Path.isAbsolute_of_no_slash (hslash a ha))
      (Path.isAbsolute_of_no_slash (hslash b hb))).mp h
  have hinput : (d.modelNames.map fun m => s.outputPath (m ++ s.output.inputSuffix)).Nodup :=
    (List.nodup_append.mp hd).1.map_on fun a ha b hb h => inputPath_inj (hmodel a ha) (hmodel b hb) h
  -- The files go entity by entity; all canonical paths and then all input paths are a permutation of theirs.
  have hperm : ((s.plan d).files.map (·.path)).Perm ((d.modelNames ++ d.enumNames).map s.outputPath ++
      d.modelNames.map fun m => s.outputPath (m ++ s.output.inputSuffix)) := by
    have hpairs := List.map_append_flatMap_perm d.modelNames s.outputPath
      fun m => [s.outputPath (m ++ s.output.inputSuffix)]
    rw [← List.map_eq_flatMap] at hpairs
    rw [paths_plan, List.map_append, List.append_assoc]
    exact (hpairs.symm.append_right _).trans (by
      rw [List.append_assoc]
      exact List.perm_append_comm.append_left _)
  rw [hperm.nodup_iff, List.nodup_append]
  simp only [hcanonical, hinput, true_and, List.mem_map, forall_exists_index, and_imp, forall_apply_eq_imp_iff₂]

/-- No input file has the path of a canonical one unless an entity is named like a model with the suffix, or
    the suffix is an absolute path and stands alone, after the empty name. -/
theorem inputPaths_apart_iff (hslash : ∀ n ∈ d.modelNames ++ d.enumNames, '/' ∉ n.toList) :
    (∀ n ∈ d.modelNames ++ d.enumNames, ∀ m ∈ d.modelNames,
      s.outputPath n ≠ s.outputPath (m ++ s.output.inputSuffix)) ↔
    (∀ m ∈ d.modelNames, m ++ s.output.inputSuffix ∉ d.modelNames ++ d.enumNames) ∧
      ("" ∈ d.modelNames → Path.isAbsolute s.output.inputSuffix = true →
        ∀ n ∈ d.modelNames ++ d.enumNames, s.outputPath n ≠ fileName s.output.inputSuffix) := by
  have hpath : ∀ n ∈ d.modelNames ++ d.enumNames, ∀ m ∈ d.modelNames, _ := fun n hn m hm =>
    outputPath_eq_inputPath_iff (s := s) (hslash n hn) (hslash m (List.mem_append_left _ hm)) s.output.inputSuffix
  constructor
  · intro h
    refine ⟨fun m hm hmem => h _ hmem m hm rfl, fun hempty habs n hn hne => ?_⟩
    exact h n hn "" hempty ((hpath n hn "" hempty).mpr (Or.inr ⟨rfl, habs, hne⟩))
  · rintro ⟨hnames, hlone⟩ n hn m hm h
    rcases (hpath n hn m hm).mp h with rfl | ⟨rfl, habs, hne⟩
    · exact hnames m hm hn
    · exact hlone hm habs n hn hne

/-! ### The locations of a plan -/

/-- Stems without slashes whose paths lead to one location are equal. -/
theorem stem_eq_of_locate {disk : Disk} {l : Location} (ha : '/' ∉ a.toList) (hb : '/' ∉ b.toList)
    (hal : disk.locate (s.outputPath a) = .ok l) (hbl : disk.locate (s.outputPath b) = .ok l) : a = b := by
  rw [outputPath_of_relative (Path.isAbsolute_of_no_slash ha)] at hal
  rw [outputPath_of_relative (Path.isAbsolute_of_no_slash hb)] at hbl
  exact fileName_inj.mp (Disk.eq_of_locate_lead (slash_not_mem_fileName ha) (slash_not_mem_fileName hb)
    (fileName_not_idle a) (fileName_not_idle b) hal hbl)

/-- With a suffix that has no slash, files with one location have one path. -/
theorem path_eq_of_locate {disk : Disk} {l : Location} {f g : OutputFile}
    (hslash : ∀ n ∈ d.modelNames ++ d.enumNames, '/' ∉ n.toList) (hsuffix : '/' ∉ s.output.inputSuffix.toList)
    (hf : f ∈ (s.plan d).files) (hg : g ∈ (s.plan d).files)
    (hfl : disk.locate f.path = .ok l) (hgl : disk.locate g.path = .ok l) : f.path = g.path := by
  have hstem : ∀ {h : OutputFile}, h ∈ (s.plan d).files →
      ∃ stem, '/' ∉ stem.toList ∧ h.path = s.outputPath stem := by
    intro h hh
    have hpath : h.path ∈ (s.plan d).files.map (·.path) := List.mem_map_of_mem hh
    rw [paths_plan] at hpath
    rcases List.mem_append.mp hpath with hpath | hpath
    · obtain ⟨n, hn, hpath⟩ := List.mem_flatMap.mp hpath
      have hname := hslash n (List.mem_append_left _ hn)
      rcases List.mem_cons.mp hpath with hpath | hpath
      · exact ⟨n, hname, hpath⟩
      · refine ⟨n ++ s.output.inputSuffix, ?_, List.mem_singleton.mp hpath⟩
        rw [String.toList_append, List.mem_append, not_or]
        exact ⟨hname, hsuffix⟩
    · obtain ⟨n, hn, hpath⟩ := List.mem_map.mp hpath
      exact ⟨n, hslash n (List.mem_append_right _ hn), hpath.symm⟩
  obtain ⟨a, ha, hfa⟩ := hstem hf
  obtain ⟨b, hb, hgb⟩ := hstem hg
  rw [hfa] at hfl
  rw [hgb] at hgl
  rw [hfa, hgb, stem_eq_of_locate ha hb hfl hgl]

/-- Over distinct names without slashes, the paths of a plan are distinct exactly when no entity is named like a
    model with the suffix, the lone absolute suffix aside. A run that writes them loses no text exactly when
    files with one location have one text, and so it is when the suffix has no slash and the paths are distinct. -/
theorem nodup_paths_and_readText (hd : (d.modelNames ++ d.enumNames).Nodup)
    (hslash : ∀ n ∈ d.modelNames ++ d.enumNames, '/' ∉ n.toList) :
    (((s.plan d).files.map (·.path)).Nodup ↔
      (∀ m ∈ d.modelNames, m ++ s.output.inputSuffix ∉ d.modelNames ++ d.enumNames) ∧
        ("" ∈ d.modelNames → Path.isAbsolute s.output.inputSuffix = true →
          ∀ n ∈ d.modelNames ++ d.enumNames, s.outputPath n ≠ fileName s.output.inputSuffix)) ∧
    ∀ (disk disk' : Disk) (results : List WriteResult),
      (OutputFile.writeAll false (s.plan d).files : StateM Disk _).run disk = (.ok results, disk') →
      ((∀ f ∈ (s.plan d).files, disk'.readText f.path = .ok f.content) ↔
        ∀ f ∈ (s.plan d).files, ∀ g ∈ (s.plan d).files,
          disk'.locate f.path = disk'.locate g.path → f.content = g.content) ∧
      ('/' ∉ s.output.inputSuffix.toList → ((s.plan d).files.map (·.path)).Nodup →
        ∀ f ∈ (s.plan d).files, disk'.readText f.path = .ok f.content) := by
  refine ⟨(nodup_paths_iff hd hslash).trans (inputPaths_apart_iff hslash), fun disk disk' results h => ?_⟩
  have hwritten := OutputFile.written_of_writeAll h
  refine ⟨hwritten.readText_iff, fun hsuffix hpaths f hf => ?_⟩
  obtain ⟨l, g, hlocate, hlast, hread⟩ := hwritten.readText_last hf
  have hpath := path_eq_of_locate hslash hsuffix hf hlast.mem hlocate hlast.locate
  rw [hread, List.inj_on_of_nodup_map hpaths hf hlast.mem hpath]

theorem nodup_paths_and_readText_user :
    let s : Settings := { output := { directory := "" } }
    let d : Document := ⟨[⟨"User", []⟩], []⟩
    (d.modelNames ++ d.enumNames).Nodup ∧ (∀ n ∈ d.modelNames ++ d.enumNames, '/' ∉ n.toList) ∧
      ((s.plan d).files.map (·.path)).Nodup ∧
      ∃ results disk, (OutputFile.writeAll false (s.plan d).files : StateM Disk _).run .empty = (.ok results, disk) ∧
        ∀ f ∈ (s.plan d).files, disk.readText f.path = .ok f.content := by
  intro s d
  have hd : (d.modelNames ++ d.enumNames).Nodup := by decide
  have hslash : ∀ n ∈ d.modelNames ++ d.enumNames, '/' ∉ n.toList := by decide
  have hall := nodup_paths_and_readText (s := s) hd hslash
  have hpaths : ((s.plan d).files.map (·.path)).Nodup :=
    hall.1.mpr ⟨by decide, fun hempty => absurd hempty (by decide)⟩
  have hrun : ((OutputFile.writeAll false (s.plan d).files : StateM Disk _).run .empty).1.toBool = true := by decide
  rcases hresult : (OutputFile.writeAll false (s.plan d).files : StateM Disk _).run .empty with ⟨_ | results, disk⟩
  · rw [hresult] at hrun
    cases hrun
  · exact ⟨hd, hslash, hpaths, results, disk, rfl, (hall.2 _ _ _ hresult).2 (by decide) hpaths⟩

/-- With the default settings the input file of one model has the path of another model's canonical file. -/
theorem same_path_userInput :
    let s : Settings := {}
    let d : Document := ⟨[⟨"User", [.new "id" "Int"]⟩, ⟨"UserInput", [.new "id" "Int"]⟩], []⟩
    s.validate.toBool = true ∧ (d.modelNames ++ d.enumNames).Nodup ∧
      (∀ n ∈ d.modelNames ++ d.enumNames, '/' ∉ n.toList) ∧
      (s.plan d).files.map (·.path) = ["./generated/User.ts", "./generated/UserInput.ts", "./generated/UserInput.ts",
        "./generated/UserInputInput.ts"] ∧
      ¬ ((s.plan d).files.map (·.path)).Nodup := by
  decide

end Settings

end SchemaForge
