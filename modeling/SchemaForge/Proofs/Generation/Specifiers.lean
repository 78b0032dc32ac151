import SchemaForge.Proofs.Generation.Declarations
import SchemaForge.Proofs.Generation.Preamble
import SchemaForge.Proofs.Text.Script

/-! The modules that generated files import from. A module is put between quotes as it is configured, with no escapes,
    so the literal denotes it exactly when it has no quote, no backslash and no line break. A path with
    backslashes is read as another one. -/

namespace SchemaForge

/-- After the lines `earlier` the text has a line that opens with `head`, and the rest of a literal that denotes
    `module` comes next. -/
def Text.NamesModule (e : LineEnding) (text : String) (earlier : List String) (head module : String) : Prop :=
  ∃ rest, text = e.apply (String.join (earlier.map (· ++ "\n")) ++ head) ++ rest ∧ Script.Denotes rest.toList module

theorem Text.exists_intercalate (line : String) (later : List String) : ∀ earlier : List String, ∃ rest,
    String.intercalate "\n" (earlier ++ line :: later) = String.join (earlier.map (· ++ "\n")) ++ line ++ rest
  | [] => by
    cases later with
    | nil => exact ⟨"", by simp⟩
    | cons next later => exact ⟨"\n" ++ String.intercalate "\n" (next :: later), by simp [String.append_assoc]⟩
  | first :: earlier => by
    obtain ⟨rest, hrest⟩ := Text.exists_intercalate line later earlier
    have hne : earlier ++ line :: later ≠ [] := by simp
    refine ⟨rest, ?_⟩
    rw [List.cons_append, String.intercalate_cons_of_ne_nil hne, hrest, List.map_cons, String.join_cons]
    simp only [String.append_assoc]

namespace Emitter
variable {lines earlier later : List String} {head module : String}

/-- What a file goes on with after the head of an import: the module, in the file's line ending, and a quote. -/
theorem exists_specifier (e : Emitter) (h : lines = earlier ++ (head ++ module ++ "'") :: later) (body : String) : ∃ rest behind,
    e.file lines body = e.lineEnding.apply (String.join (earlier.map (· ++ "\n")) ++ head) ++ rest ∧
      rest.toList = (e.lineEnding.apply module).toList ++ '\x27' :: behind := by
  obtain ⟨more, hmore⟩ := Text.exists_intercalate (head ++ module ++ "'") later earlier
  have hfile : e.file lines body =
      e.lineEnding.apply (String.intercalate "\n" lines ++ "\n\n" ++ body ++ "\n") := by
    have hne : lines.isEmpty = false := by simp [h]
    simp only [file, hne, Bool.false_eq_true, if_false]
  refine ⟨e.lineEnding.apply (module ++ ("'" ++ (more ++ "\n\n" ++ body ++ "\n"))),
    (e.lineEnding.apply (more ++ "\n\n" ++ body ++ "\n")).toList, ?_, ?_⟩
  · rw [hfile, h, hmore, ← LineEnding.apply_append]
    simp only [String.append_assoc]
  · rw [LineEnding.apply_append, LineEnding.apply_append, String.toList_append, String.toList_append]
    congr 1
    cases e.lineEnding <;> rfl

/-- An import names whatever its literal is read as. -/
theorem namesModule_of_denotes (e : Emitter) (h : lines = earlier ++ (head ++ module ++ "'") :: later) (body : String)
    {other : String} (hother : ∀ behind, Script.Denotes ((e.lineEnding.apply module).toList ++ '\x27' :: behind) other) :
    Text.NamesModule e.lineEnding (e.file lines body) earlier head other := by
  obtain ⟨rest, behind, hfile, hrest⟩ := e.exists_specifier h body
  exact ⟨rest, hfile, hrest ▸ hother behind⟩

/-- The literal of an import denotes the module that was put there exactly when the module is plain. -/
theorem namesModule_iff (e : Emitter) (h : lines = earlier ++ (head ++ module ++ "'") :: later) (body : String) :
    Text.NamesModule e.lineEnding (e.file lines body) earlier head module ↔ Script.Verbatim module := by
  constructor
  · rintro ⟨rest', hfile', hdenotes⟩
    obtain ⟨rest, behind, hfile, hrest⟩ := e.exists_specifier h body
    rw [(String.append_right_inj _).mp (hfile'.symm.trans hfile), hrest] at hdenotes
    exact (Script.denotes_apply_iff e.lineEnding module behind).mp hdenotes
  · exact fun hplain => e.namesModule_of_denotes h body fun behind =>
      (Script.denotes_apply_iff e.lineEnding module behind).mpr hplain

end Emitter

namespace Settings

/-- Every file of an entity imports the entity's enums. -/
theorem content_eq_file {s : Settings} {d : Document} {e : Entity} (he : e ∈ d.generate s.generator) {f : OutputFile}
    (hf : f ∈ s.filesOf e) : ∃ body,
      f.content = (Emitter.ofOptions s.generator).file (s.generator.importLines e.enumImports) body := by
  rw [Document.generate_eq] at he
  rcases List.mem_append.mp he with he | he
  · obtain ⟨p, -, rfl⟩ := List.mem_map.mp he
    rcases List.mem_pair.mp (hf : f ∈ [_, _]) with rfl | rfl <;> exact ⟨_, rfl⟩
  · obtain ⟨enum, -, rfl⟩ := List.mem_map.mp he
    rw [List.mem_singleton.mp (hf : f ∈ [_])]
    exact ⟨_, rfl⟩

/-- The import lines of a generated file name the configured modules exactly when these are plain: the first line the
    library, and the line of an enum the prefix with the enum's name. -/
theorem specifiers_denote_iff (s : Settings) (d : Document) : ∀ e ∈ d.generate s.generator, ∀ f ∈ s.filesOf e,
    (Text.NamesModule s.generator.lineEnding f.content [] "import \x7b Type, Static \x7d from '" s.generator.library ↔
      Script.Verbatim s.generator.library) ∧
    ∀ n ∈ e.enumImports, ∃ earlier later,
      s.generator.importLines e.enumImports = earlier ++ s.generator.enumImport n :: later ∧
      (Text.NamesModule s.generator.lineEnding f.content earlier ("import \x7b " ++ n ++ " \x7d from '")
          (s.generator.enumImportPrefix ++ n) ↔ Script.Verbatim (s.generator.enumImportPrefix ++ n)) := by
  intro e he f hf
  obtain ⟨body, hbody⟩ := content_eq_file he hf
  rw [hbody]
  constructor
  · obtain ⟨later, hlines⟩ := s.generator.exists_importLines e.enumImports
    exact (Emitter.ofOptions s.generator).namesModule_iff hlines body
  · intro n hn
    obtain ⟨earlier, later, hlines⟩ := List.append_of_mem (s.generator.mem_importLines hn)
    have hsplit : s.generator.enumImport n =
        "import \x7b " ++ n ++ " \x7d from '" ++ (s.generator.enumImportPrefix ++ n) ++ "'" := by
      rw [Options.enumImport_eq]
      simp only [String.append_assoc]
    exact ⟨earlier, later, hlines, (Emitter.ofOptions s.generator).namesModule_iff (hsplit ▸ hlines) body⟩

theorem specifiers_denote_iff_role :
    let s : Settings := {}
    let d : Document := ⟨[⟨"User", [.new "role" "Role"]⟩], [⟨"Role", [⟨"USER"⟩]⟩]⟩
    ∃ e ∈ d.generate s.generator, ∃ f ∈ s.filesOf e, "Role" ∈ e.enumImports ∧
      Text.NamesModule .lf f.content [] "import \x7b Type, Static \x7d from '" "@sinclair/typebox" ∧
      ∃ earlier, Text.NamesModule .lf f.content earlier "import \x7b Role \x7d from '" "./Role" := by
  intro s d
  have hentity : ∃ e ∈ d.generate s.generator, "Role" ∈ e.enumImports := by decide
  obtain ⟨e, he, hrole⟩ := hentity
  have hfile : ⟨s.outputPath e.name, e.canonical⟩ ∈ s.filesOf e := List.mem_cons_self
  obtain ⟨hlibrary, henums⟩ := s.specifiers_denote_iff d e he _ hfile
  obtain ⟨earlier, -, -, henum⟩ := henums "Role" hrole
  exact ⟨e, he, _, hfile, hrole, hlibrary.mpr (by decide), earlier, henum.mpr (by decide)⟩

/-- With modules that are given as paths with backslashes the imports name others, though the settings are valid. -/
theorem specifiers_name_others :
    let s : Settings := { generator := { library := "vendor\\typebox", enumImportPrefix := "..\\enums\\" } }
    let d : Document := ⟨[⟨"User", [.new "role" "Role"]⟩], [⟨"Role", [⟨"USER"⟩]⟩]⟩
    s.validate.toBool = true ∧ ∃ e ∈ d.generate s.generator, e.enumImports = ["Role"] ∧ ∀ f ∈ s.filesOf e,
      (Text.NamesModule .lf f.content [] "import \x7b Type, Static \x7d from '" "vendor\typebox" ∧
        ¬ Text.NamesModule .lf f.content [] "import \x7b Type, Static \x7d from '" "vendor\\typebox") ∧
      Text.NamesModule .lf f.content [s.generator.libraryImport] "import \x7b Role \x7d from '" "..enumsRole" ∧
        ¬ Text.NamesModule .lf f.content [s.generator.libraryImport] "import \x7b Role \x7d from '"
          "..\\enums\\Role" := by
  intro s d
  have hentity : ∃ e ∈ d.generate s.generator, e.enumImports = ["Role"] := by decide
  obtain ⟨e, he, himports⟩ := hentity
  refine ⟨by decide, e, he, himports, fun f hf => ?_⟩
  obtain ⟨body, hbody⟩ := content_eq_file he hf
  rw [hbody]
  have hlibrary : s.generator.importLines e.enumImports =
      [] ++ ("import \x7b Type, Static \x7d from '" ++ "vendor\\typebox" ++ "'") :: [s.generator.enumImport "Role"] := by
    rw [himports]
    decide
  have henum : s.generator.importLines e.enumImports =
      [s.generator.libraryImport] ++ ("import \x7b Role \x7d from '" ++ "..\\enums\\Role" ++ "'") :: [] := by
    rw [himports]
    decide
  -- An escaped `t` is a tab, and an escaped letter that starts no escape stands for itself.
  have htab : ∀ behind, Script.Denotes ((LineEnding.lf.apply "vendor\\typebox").toList ++ '\x27' :: behind)
    "vendor\typebox" := fun behind => ⟨behind, rfl⟩
  have hletters : ∀ behind, Script.Denotes ((LineEnding.lf.apply "..\\enums\\Role").toList ++ '\x27' :: behind)
    "..enumsRole" := fun behind => ⟨behind, rfl⟩
  refine ⟨⟨Emitter.namesModule_of_denotes _ hlibrary body htab, fun h => ?_⟩,
    Emitter.namesModule_of_denotes _ henum body hletters, fun h => ?_⟩
  · exact absurd ((Emitter.namesModule_iff _ hlibrary body).mp h) (by decide)
  · exact absurd ((Emitter.namesModule_iff _ henum body).mp h) (by decide)

end Settings

end SchemaForge
