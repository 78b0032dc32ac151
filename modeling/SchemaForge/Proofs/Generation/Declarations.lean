import SchemaForge.Proofs.Generation.Pass
import SchemaForge.Proofs.Text.Suffix

/-! The statements of generated files and the names that they bind. Every file is a list of imports and
    a body: a model's file exports a constant and a type, an enum's file has one more constant. A name is
    bound twice exactly when an import is named like the library's or like an export of the file, or when
    the file's entity has no name or one of the library's. -/

namespace SchemaForge

/-- A statement at the top of a file. -/
inductive Statement where
  | importNames (names : List String) (module : String)
  | const (exported : Bool) (name value : String)
  | typeAlias (name value : String)

namespace Statement

def text : Statement → String
  | importNames names module =>
    "import \x7b " ++ String.intercalate ", " names ++ " \x7d from '" ++ module ++ "'"
  | const exported name value => (if exported then "export " else "") ++ "const " ++ name ++ " = " ++ value
  | typeAlias name value => "export type " ++ name ++ " = " ++ value

/-- The names that a statement binds. Each name in a list counts as one identifier, as it stands there, also the name
    of an enum with a comma in it. -/
def bound : Statement → List String
  | importNames names _ => names
  | const _ name _ => [name]
  | typeAlias name _ => [name]

end Statement

structure SourceFile where
  imports : List Statement
  body : List Statement

namespace SourceFile

/-- Imports stand on lines of their own, and an empty line comes before each other statement. -/
def text (f : SourceFile) (ending : LineEnding) : String :=
  ending.apply (String.intercalate "\n" (f.imports.map (·.text)) ++ "\n\n" ++
    String.intercalate "\n\n" (f.body.map (·.text)) ++ "\n")

def bound (f : SourceFile) : List String := (f.imports ++ f.body).flatMap (·.bound)

end SourceFile

namespace Options

/-- The enums that a file imports by lines of their own: those whose line is not the library's. -/
def importedEnums (o : Options) (enums : List String) : List String :=
  enums.filter fun n => o.enumImport n ≠ o.libraryImport

def imports (o : Options) (enums : List String) : List Statement :=
  .importNames ["Type", "Static"] o.library ::
    (o.importedEnums enums).map fun n => .importNames [n] (o.enumImportPrefix ++ n)

end Options

/-- The type that goes with an exported constant. -/
def Statement.staticAlias (name : String) : Statement :=
  .typeAlias (name ++ "Type") ("Static<typeof " ++ name ++ ">")

namespace Generation

/-- The file of one variant of a model. -/
def modelSource (o : Options) (m : Model) (v : Variant) (r : Resolved) : SourceFile :=
  let name := m.name ++ v.exportSuffix
  ⟨o.imports r.enumImports, [.const true name ((Emitter.ofOptions o).object (r.schema v) 0), .staticAlias name]⟩

def enumSource (o : Options) (e : Enum) : SourceFile :=
  let entries := String.join (e.values.map (Emitter.ofOptions o).enumEntry)
  ⟨o.imports [],
    [.const false (e.name ++ "Const") ("\x7b\n" ++ entries ++ "\x7d"),
      .const true e.name ("Type.KeyOf(Type.Object(" ++ e.name ++ "Const, \x7b $id: '#" ++ Literal.escape e.name ++
        "', additionalProperties: false \x7d))"),
      .staticAlias e.name]⟩

end Generation

/-! ### Files are their statements -/

namespace Statement

theorem text_import (name module : String) :
    (importNames [name] module).text = "import \x7b " ++ name ++ " \x7d from '" ++ module ++ "'" := rfl

theorem text_export (name value : String) :
    (const true name value).text = "export const " ++ name ++ " = " ++ value := by
  have hsplit : "export const " = "export " ++ "const " := rfl
  have htext : (const true name value).text = "export " ++ "const " ++ name ++ " = " ++ value := rfl
  rw [htext, hsplit]

theorem text_const (name value : String) : (const false name value).text = "const " ++ name ++ " = " ++ value := by
  have htext : (const false name value).text = "" ++ "const " ++ name ++ " = " ++ value := rfl
  rw [htext, String.empty_append]

theorem text_staticAlias (name : String) : (staticAlias name).text = Emitter.staticType name := by
  have hsplit : "Type = Static<typeof " = "Type" ++ " = " ++ "Static<typeof " := rfl
  have htext : (staticAlias name).text =
      "export type " ++ (name ++ "Type") ++ " = " ++ ("Static<typeof " ++ name ++ ">") := rfl
  have htype : Emitter.staticType name = "export type " ++ name ++ "Type = Static<typeof " ++ name ++ ">" := rfl
  rw [htext, htype, hsplit]
  simp only [String.append_assoc]

end Statement

namespace Options
variable {o : Options}

theorem enumImport_eq (n : String) :
    o.enumImport n = "import \x7b " ++ n ++ " \x7d from '" ++ o.enumImportPrefix ++ n ++ "'" := rfl

theorem enumImport_injective {a b : String} (h : o.enumImport a = o.enumImport b) : a = b := by
  rw [enumImport_eq, enumImport_eq] at h
  have hlen := congrArg (fun s => s.toList.length) h
  simp only [String.toList_append, List.length_append] at hlen
  exact (Text.append_inj_of_length ((String.append_left_inj _).mp h) (by omega)).2

theorem importedEnums_cons_of_eq {n : String} (h : o.enumImport n = o.libraryImport) (enums : List String) :
    o.importedEnums (n :: enums) = o.importedEnums enums :=
  List.filter_cons_of_neg (by rw [decide_eq_true_eq]; exact not_not.mpr h)

theorem importedEnums_cons_of_ne {n : String} (h : o.enumImport n ≠ o.libraryImport) (enums : List String) :
    o.importedEnums (n :: enums) = n :: o.importedEnums enums :=
  List.filter_cons_of_pos (decide_eq_true h)

/-- Adding the imports of different enums adds each line that is not the library's. -/
theorem foldl_importLines : ∀ (enums lines : List String), enums.Nodup → o.libraryImport ∈ lines →
    (∀ n ∈ enums, o.enumImport n ∈ lines → o.enumImport n = o.libraryImport) →
    enums.foldl (fun lines name => if o.enumImport name ∈ lines then lines else lines ++ [o.enumImport name]) lines =
      lines ++ (o.importedEnums enums).map o.enumImport
  | [], lines, _, _, _ => (List.append_nil lines).symm
  | name :: enums, lines, hnodup, hlib, hold => by
    obtain ⟨hfresh, hnodup⟩ := List.nodup_cons.mp hnodup
    rw [List.foldl_cons]
    by_cases h : o.enumImport name ∈ lines
    · have hline := hold name List.mem_cons_self h
      rw [if_pos h, foldl_importLines enums lines hnodup hlib fun n hn => hold n (List.mem_cons_of_mem _ hn),
        importedEnums_cons_of_eq hline]
    · have hne : o.enumImport name ≠ o.libraryImport := by
        intro hline
        exact h (hline ▸ hlib)
      have hold' : ∀ n ∈ enums, o.enumImport n ∈ lines ++ [o.enumImport name] →
          o.enumImport n = o.libraryImport := by
        intro n hn hmem
        rcases List.mem_append.mp hmem with hmem | hmem
        · exact hold n (List.mem_cons_of_mem _ hn) hmem
        · have hname := enumImport_injective (List.mem_singleton.mp hmem)
          exact absurd (hname ▸ hn) hfresh
      rw [if_neg h, foldl_importLines enums _ hnodup (List.mem_append.mpr (Or.inl hlib)) hold',
        importedEnums_cons_of_ne hne, List.map_cons, List.append_assoc, List.singleton_append]

theorem importLines_eq {enums : List String} (h : enums.Nodup) :
    o.importLines enums = (o.imports enums).map (·.text) := by
  rw [importLines, foldl_importLines enums _ h List.mem_cons_self fun _ _ hmem => List.mem_singleton.mp hmem]
  rw [imports, List.map_cons, List.map_map, List.singleton_append]
  congr 1
  apply List.map_congr_left
  intro n _
  simp only [Function.comp_apply, Statement.text_import, enumImport_eq, String.append_assoc]

end Options

theorem Emitter.file_eq (e : Emitter) {imports : List Statement} (body : List Statement) (h : imports ≠ []) :
    e.file (imports.map (·.text)) (String.intercalate "\n\n" (body.map (·.text))) =
      SourceFile.text ⟨imports, body⟩ e.lineEnding := by
  have hne : (imports.map (·.text)).isEmpty = false := by simpa using h
  simp only [file, hne, SourceFile.text, Bool.false_eq_true, if_false]

namespace Generation
variable {o : Options}

theorem text_modelSource {m : Model} {r : Resolved} (h : r.enumImports.Nodup) (v : Variant) :
    (Emitter.ofOptions o).modelFile m.name v (r.schema v) (o.importLines r.enumImports) =
      (modelSource o m v r).text o.lineEnding := by
  have himports : o.imports r.enumImports ≠ [] := List.cons_ne_nil _ _
  refine Eq.trans ?_ ((Emitter.ofOptions o).file_eq (modelSource o m v r).body himports)
  rw [Options.importLines_eq h, Emitter.modelFile]
  simp only [modelSource, List.map_cons, List.map_nil, String.intercalate_cons_cons, String.intercalate_singleton,
    Statement.text_export, Statement.text_staticAlias]

theorem text_enumSource (e : Enum) :
    (Emitter.ofOptions o).enumFile e (o.importLines []) = (enumSource o e).text o.lineEnding := by
  have himports : o.imports [] ≠ [] := List.cons_ne_nil _ _
  -- The file's text runs the end of a statement and the empty line after it together.
  have hopen : "Const = \x7b\n" = "Const" ++ " = " ++ "\x7b\n" := rfl
  have hclose : "\x7d\n\n" = "\x7d" ++ "\n\n" := rfl
  have hkeyOf : " = Type.KeyOf(Type.Object(" = " = " ++ "Type.KeyOf(Type.Object(" := rfl
  have hend : "', additionalProperties: false \x7d))\n\n" = "', additionalProperties: false \x7d))" ++ "\n\n" := rfl
  refine Eq.trans ?_ ((Emitter.ofOptions o).file_eq (enumSource o e).body himports)
  rw [Options.importLines_eq List.nodup_nil, Emitter.enumFile]
  simp only [enumSource, List.map_cons, List.map_nil, String.intercalate_cons_cons, String.intercalate_singleton,
    Statement.text_staticAlias, Statement.text_export, Statement.text_const, hopen, hclose, hend, hkeyOf,
    String.append_assoc]

end Generation

def Entity.texts (e : Entity) : List String := e.canonical :: e.input.toList

namespace Document

/-- The files of a pass: two for each model, and one for each enum. -/
def sources (d : Document) (o : Options) : List SourceFile :=
  d.placedModels.flatMap (fun p =>
    [Generation.modelSource o p.1 .canonical (d.resolvedModel p),
      Generation.modelSource o p.1 .input (d.resolvedModel p)]) ++
    d.enums.map (Generation.enumSource o)

theorem texts_generate (d : Document) (o : Options) :
    (d.generate o).flatMap (·.texts) = (d.sources o).map (·.text o.lineEnding) := by
  have hmodel : ∀ p : Model × Nat, (Generation.modelEntity o p.1 (d.resolvedModel p)).texts =
      [(Generation.modelSource o p.1 .canonical (d.resolvedModel p)).text o.lineEnding,
        (Generation.modelSource o p.1 .input (d.resolvedModel p)).text o.lineEnding] := by
    intro p
    rw [← Generation.text_modelSource (d.nodup_enumImports p), ← Generation.text_modelSource (d.nodup_enumImports p)]
    rfl
  have henum : ∀ e : Enum, (Generation.enumEntity o e).texts = [(Generation.enumSource o e).text o.lineEnding] := by
    intro e
    rw [← Generation.text_enumSource]
    rfl
  have henums : d.enums.flatMap (fun e => [(Generation.enumSource o e).text o.lineEnding]) =
      d.enums.map ((·.text o.lineEnding) ∘ Generation.enumSource o) := List.map_eq_flatMap.symm
  rw [generate_eq, sources, List.flatMap_append, List.map_append, List.map_flatMap, List.flatMap_map,
    List.flatMap_map, List.map_map]
  simp only [hmodel, henum, henums, List.map_cons, List.map_nil]

end Document

/-! ### Names bound twice -/

theorem Options.bound_imports (o : Options) (enums : List String) :
    (o.imports enums).flatMap (·.bound) = ["Type", "Static"] ++ o.importedEnums enums := by
  rw [imports, List.flatMap_cons, List.flatMap_map]
  congr 1
  induction o.importedEnums enums with
  | nil => rfl
  | cons n enums ih =>
    rw [List.flatMap_cons, ih]
    rfl

/-- Imports and exports are distinct when no import is named like the library's or like an export, and
    no export like the library's. -/
theorem nodup_library_append {imported exports : List String} (h : imported.Nodup) :
    (["Type", "Static"] ++ imported ++ exports).Nodup ↔
      exports.Nodup ∧ (∀ x ∈ exports, x ∉ ["Type", "Static"]) ∧
        ∀ n ∈ imported, n ∉ ["Type", "Static"] ++ exports := by
  have hlib : ["Type", "Static"].Nodup := by decide
  simp only [List.nodup_append, hlib, h, true_and, List.mem_append]
  constructor
  · rintro ⟨hli, hexports, happart⟩
    refine ⟨hexports, fun x hx hl => happart x (Or.inl hl) x hx rfl, ?_⟩
    rintro n hn (hl | hx)
    · exact hli n hl n hn rfl
    · exact happart n (Or.inr hn) n hx rfl
  · rintro ⟨hexports, hxl, hn⟩
    refine ⟨fun a ha b hb hab => hn b hb (Or.inl (hab ▸ ha)), hexports, ?_⟩
    rintro a (ha | ha) b hb rfl
    · exact hxl a hb ha
    · exact hn a ha (Or.inr hb)

namespace Generation
variable {o : Options} {m : Model} {r : Resolved}

theorem bound_modelSource (v : Variant) : (modelSource o m v r).bound =
    ["Type", "Static"] ++ o.importedEnums r.enumImports ++
      [m.name ++ v.exportSuffix, m.name ++ v.exportSuffix ++ "Type"] := by
  rw [SourceFile.bound, List.flatMap_append]
  exact congrArg (· ++ _) (o.bound_imports r.enumImports)

theorem bound_enumSource (e : Enum) :
    (enumSource o e).bound = ["Type", "Static"] ++ [e.name ++ "Const", e.name, e.name ++ "Type"] := rfl

theorem append_ne_library {name suffix : String} (h : suffix.toList.getLast? = some 't') :
    name ++ suffix ∉ ["Type", "Static"] := by
  have ht : name ++ suffix ≠ "" ++ "Type" := Text.append_ne_of_last (y := 'e') h rfl (by decide)
  have hs : name ++ suffix ≠ "" ++ "Static" := Text.append_ne_of_last (y := 'c') h rfl (by decide)
  rw [String.empty_append] at ht hs
  rw [List.mem_cons, List.mem_singleton, not_or]
  exact ⟨ht, hs⟩

/-- A constant and its type are apart from the library's names unless the constant has no name or one of them. -/
theorem exports_avoid_library (name : String) :
    (∀ x ∈ [name, name ++ "Type"], x ∉ ["Type", "Static"]) ↔ name ∉ ["", "Type", "Static"] := by
  have hstatic : name ++ "Type" ≠ "" ++ "Static" :=
    Text.append_ne_of_last (x := 'e') (y := 'c') rfl rfl (by decide)
  rw [String.empty_append] at hstatic
  have htype : name ++ "Type" ∉ ["Type", "Static"] ↔ name ≠ "" := by
    simp only [List.mem_cons, List.not_mem_nil, or_false, String.append_eq_right_iff, hstatic]
  have hname : name ∉ ["", "Type", "Static"] ↔ name ≠ "" ∧ name ∉ ["Type", "Static"] := by
    rw [List.mem_cons, not_or]
  rw [List.forall_mem_cons, List.forall_mem_singleton, htype, hname]
  exact and_comm

theorem nodup_exports (name : String) : [name, name ++ "Type"].Nodup := by
  have hne : name ≠ name ++ "Type" := fun h => absurd (String.append_eq_left_iff.mp h.symm) (by decide)
  exact List.nodup_cons.mpr ⟨fun h => hne (List.mem_singleton.mp h), List.nodup_singleton _⟩

/-- The names of a model's file are distinct when the exported constant has a name that is not the library's
    and no import is named like the library's or like an export. -/
theorem nodup_bound_modelSource (h : r.enumImports.Nodup) {v : Variant} {name : String}
    (hname : m.name ++ v.exportSuffix = name) :
    (modelSource o m v r).bound.Nodup ↔ name ∉ ["", "Type", "Static"] ∧
      ∀ n ∈ o.importedEnums r.enumImports, n ∉ ["Type", "Static", name, name ++ "Type"] := by
  have himported : (o.importedEnums r.enumImports).Nodup := h.filter _
  rw [bound_modelSource, hname, nodup_library_append himported, exports_avoid_library]
  exact ⟨fun hall => hall.2, fun hall => ⟨nodup_exports name, hall⟩⟩

theorem nodup_bound_enumSource (e : Enum) : (enumSource o e).bound.Nodup ↔ e.name ∉ ["", "Type", "Static"] := by
  have hends : e.name ++ "Const" ≠ e.name ++ "Type" :=
    Text.append_ne_of_last (x := 't') (y := 'e') rfl rfl (by decide)
  have hconst : e.name ++ "Const" ∉ ["Type", "Static"] := append_ne_library rfl
  have hexports : [e.name ++ "Const", e.name, e.name ++ "Type"].Nodup := by
    have hself : e.name ++ "Const" ≠ e.name := fun h => absurd (String.append_eq_left_iff.mp h) (by decide)
    rw [List.nodup_cons, List.mem_cons, List.mem_singleton, not_or]
    exact ⟨⟨hself, hends⟩, nodup_exports e.name⟩
  have hlist : ["Type", "Static"] ++ [e.name ++ "Const", e.name, e.name ++ "Type"] =
      ["Type", "Static"] ++ [] ++ [e.name ++ "Const", e.name, e.name ++ "Type"] := rfl
  rw [bound_enumSource, hlist, nodup_library_append List.nodup_nil, List.forall_mem_cons, exports_avoid_library]
  constructor
  · rintro ⟨-, ⟨-, hname⟩, -⟩
    exact hname
  · intro hname
    exact ⟨hexports, ⟨hconst, hname⟩, fun _ hn => absurd hn List.not_mem_nil⟩

variable {d : Document} {p : Model × Nat}

/-- Names being distinct, the canonical file of a model never imports an enum of the model's name. -/
theorem nodup_bound_canonical (hd : (d.modelNames ++ d.enumNames).Nodup) (hp : p ∈ d.placedModels) :
    (modelSource o p.1 .canonical (d.resolvedModel p)).bound.Nodup ↔ p.1.name ∉ ["", "Type", "Static"] ∧
      ∀ n ∈ o.importedEnums (d.resolvedModel p).enumImports, n ∉ ["Type", "Static", p.1.name ++ "Type"] := by
  have hown : ∀ n ∈ o.importedEnums (d.resolvedModel p).enumImports, n ≠ p.1.name := by
    intro n hn h
    have henum := Document.enumImports_sub (List.mem_of_mem_filter hn)
    have hmodel : p.1.name ∈ d.modelNames := List.mem_map_of_mem (Document.mem_models_of_placed hp)
    exact (List.nodup_append.mp hd).2.2 p.1.name hmodel n henum h.symm
  rw [nodup_bound_modelSource (d.nodup_enumImports p) String.append_empty]
  refine and_congr_right fun _ => forall₂_congr fun n hn => ?_
  simp only [List.mem_cons, List.not_mem_nil, hown n hn, false_or]

/-- The constant of an input file is never named like the library's names. -/
theorem nodup_bound_input :
    (modelSource o p.1 .input (d.resolvedModel p)).bound.Nodup ↔
      ∀ n ∈ o.importedEnums (d.resolvedModel p).enumImports,
        n ∉ ["Type", "Static", p.1.name ++ "Input", p.1.name ++ "Input" ++ "Type"] := by
  have hne : p.1.name ++ "Input" ≠ "" := fun h => absurd (String.append_eq_empty_iff.mp h).2 (by decide)
  have hconstant : p.1.name ++ "Input" ∉ ["", "Type", "Static"] := by
    rw [List.mem_cons, not_or]
    exact ⟨hne, append_ne_library rfl⟩
  rw [nodup_bound_modelSource (d.nodup_enumImports p) rfl]
  exact ⟨fun h => h.2, fun h => ⟨hconstant, h⟩⟩

end Generation

/-- The files of a pass over distinct names, and exactly when one of them binds a name twice. -/
theorem Document.nodup_bound_iff {d : Document} (hd : (d.modelNames ++ d.enumNames).Nodup) (o : Options) :
    (d.generate o).flatMap (·.texts) = (d.sources o).map (·.text o.lineEnding) ∧
    (∀ p ∈ d.placedModels,
      let imported := o.importedEnums (d.resolvedModel p).enumImports
      ((Generation.modelSource o p.1 .canonical (d.resolvedModel p)).bound.Nodup ↔
        p.1.name ∉ ["", "Type", "Static"] ∧ ∀ n ∈ imported, n ∉ ["Type", "Static", p.1.name ++ "Type"]) ∧
      ((Generation.modelSource o p.1 .input (d.resolvedModel p)).bound.Nodup ↔
        ∀ n ∈ imported, n ∉ ["Type", "Static", p.1.name ++ "Input", p.1.name ++ "Input" ++ "Type"])) ∧
    ∀ e ∈ d.enums, (Generation.enumSource o e).bound.Nodup ↔ e.name ∉ ["", "Type", "Static"] :=
  ⟨d.texts_generate o, fun _ hp => ⟨Generation.nodup_bound_canonical hd hp, Generation.nodup_bound_input⟩,
    fun e _ => Generation.nodup_bound_enumSource e⟩

theorem Document.nodup_bound_iff_userRole :
    let m : Model := ⟨"User", [.new "role" "Role"]⟩
    let e : Enum := ⟨"Role", [⟨"USER"⟩]⟩
    let d : Document := ⟨[m], [e]⟩
    (d.modelNames ++ d.enumNames).Nodup ∧
      (Generation.modelSource {} m .canonical (d.resolvedModel (m, 0))).bound.Nodup ∧
      (Generation.enumSource {} e).bound.Nodup := by
  intro m e d
  have hnames : (d.modelNames ++ d.enumNames).Nodup := by decide
  have hall := nodup_bound_iff hnames {}
  exact ⟨hnames, (hall.2.1 (m, 0) List.mem_cons_self).1.mpr ⟨by decide, by decide⟩,
    (hall.2.2 e List.mem_cons_self).mpr (by decide)⟩

/-- An enum may be named like the input constant of a model that refers to it. -/
theorem Document.bound_twice_userInput :
    let m : Model := ⟨"User", [.new "role" "UserInput"]⟩
    let d : Document := ⟨[m], [⟨"UserInput", [⟨"USER"⟩]⟩]⟩
    (d.modelNames ++ d.enumNames).Nodup ∧ ∃ f ∈ d.sources {},
      f.bound = ["Type", "Static", "UserInput", "UserInput", "UserInputType"] ∧ ¬ f.bound.Nodup := by
  intro m d
  have hmem : Generation.modelSource {} m .input (d.resolvedModel (m, 0)) ∈ d.sources {} :=
    List.mem_append_left _ (List.mem_cons_of_mem _ List.mem_cons_self)
  exact ⟨by decide, _, hmem, by decide, by decide⟩

end SchemaForge
