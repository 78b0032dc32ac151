import SchemaForge.Proofs.Emitter.Marker
import SchemaForge.Proofs.Generation.Declarations
import SchemaForge.Proofs.Variant

/-! The mark of a placeholder in generated files. Where names, module paths and overrides do not hold the mark
    themselves, imports and types never do, and the constant of a model does exactly when a name in
    its schema was not resolved. -/

namespace SchemaForge
open Text

/-- No model, field, enum or enum value of the document has a colon in its name. -/
structure Document.PlainNames (d : Document) : Prop where
  models : ∀ m ∈ d.models, Plain m.name
  fields : ∀ m ∈ d.models, ∀ f ∈ m.fields, Plain f.name
  enums : ∀ n ∈ d.enumNames, Plain n
  values : ∀ e ∈ d.enums, ∀ value ∈ e.values, Plain value.name

/-- The modules have no colon in their paths, and no override holds two adjacent ones. -/
structure Options.Unmarked (o : Options) : Prop where
  library : Plain o.library
  enumImportPrefix : Plain o.enumImportPrefix
  typeOverrides : ∀ p ∈ o.typeOverrides, ¬ Marked p.2

/-! ### Resolved schemas -/

theorem Variant.plain_modelId (v : Variant) {model : String} (h : Plain model) : Plain (v.modelId model) := by
  rw [modelId, plain_append, plain_append]
  exact ⟨⟨h, by decide⟩, by cases v <;> decide⟩

theorem Variant.plain_dependencyId (v : Variant) {model : String} (h : Plain model) (number : Nat) :
    Plain (v.dependencyId model number) := by
  rw [dependencyId_eq]
  refine v.plain_modelId ?_
  rw [plain_append, plain_append]
  exact ⟨⟨h, by decide⟩, plain_toString number⟩

theorem Field.plainNames_propertyOver {f : Field} (v : Variant) {leaf : Expr} (h : leaf.PlainNames) :
    (f.propertyOver v leaf).expr.PlainNames := by
  unfold propertyOver
  cases f.isOptionalIn v <;> cases f.isList <;> exact h

/-- The properties of fields are plain when the fields' names and leaves are. -/
theorem Property.plainNames_fields {fs : List Field} {v : Variant} {leaf : String → Expr}
    (hnames : ∀ f ∈ fs, Plain f.name) (hleaf : ∀ type, (leaf type).PlainNames) :
    Property.PlainNames (fs.map fun f => f.propertyOver v (leaf f.type)) := by
  rw [plainNames_iff]
  intro p hp
  obtain ⟨f, hf, rfl⟩ := List.mem_map.mp hp
  exact ⟨hnames f hf, Field.plainNames_propertyOver v (hleaf f.type)⟩

namespace Document
variable {d : Document}

theorem PlainNames.nestedLeaf (hd : d.PlainNames) (type : String) : (d.nestedLeaf type).PlainNames := by
  rcases d.nestedLeaf_cases type with ⟨s, h⟩ | ⟨henum, h⟩ | h
  · rw [h]
    trivial
  · rw [h]
    exact hd.enums type henum
  · rw [h]
    trivial

theorem PlainNames.expandedLeaf (hd : d.PlainNames) (m : Model) (v : Variant) (last : Nat) (type : String) :
    (d.expandedLeaf m v last type).PlainNames := by
  rcases d.expandedLeaf_cases m type with ⟨s, h⟩ | ⟨henum, h⟩ | h | ⟨dependency, hdep, h⟩
  · rw [h]
    trivial
  · rw [h]
    exact hd.enums type henum
  · rw [h]
    trivial
  · rw [h]
    have hmem : dependency ∈ d.models := List.mem_of_find?_eq_some hdep
    have hname : Plain type := model?_name hdep ▸ hd.models dependency hmem
    refine ⟨v.plain_dependencyId hname _, Property.plainNames_fields (fun f hf => ?_) hd.nestedLeaf⟩
    exact hd.fields dependency hmem f (List.mem_of_mem_filter hf)

theorem PlainNames.expansion (hd : d.PlainNames) {m : Model} (hm : m ∈ d.models) (v : Variant) (last : Nat) :
    (Expr.object (d.expansion m v last)).PlainNames :=
  ⟨v.plain_modelId (hd.models m hm), Property.plainNames_fields (hd.fields m hm) (hd.expandedLeaf m v last)⟩

end Document

/-! ### Statements and files -/

theorem SourceFile.marked_text (f : SourceFile) (ending : LineEnding) :
    Marked (f.text ending) ↔ ∃ s ∈ f.imports ++ f.body, Marked s.text := by
  rw [text, marked_apply, marked_append_right (by decide), marked_between (by decide) (by decide),
    marked_intercalate (by decide) (by decide), marked_intercalate (by decide) (by decide)]
  simp only [List.mem_map, exists_exists_and_eq_and, List.mem_append, or_and_right, exists_or]

namespace Statement
variable {name value : String}

theorem not_marked_import {names : List String} {module : String} (hnames : Plain (String.intercalate ", " names))
    (hmodule : Plain module) : ¬ Marked (importNames names module).text := by
  have htext : (importNames names module).text =
      "import \x7b " ++ String.intercalate ", " names ++ " \x7d from '" ++ module ++ "'" := rfl
  rw [htext]
  refine not_marked ?_
  simp only [plain_append, hnames, hmodule, and_true]
  decide

theorem marked_const (exported : Bool) (hname : Plain name) :
    Marked (const exported name value).text ↔ Marked value := by
  cases exported
  · rw [text_const, marked_append_left]
    exact plain_append.mpr ⟨plain_append.mpr ⟨by decide, hname⟩, by decide⟩
  · rw [text_export, marked_append_left]
    exact plain_append.mpr ⟨plain_append.mpr ⟨by decide, hname⟩, by decide⟩

theorem not_marked_staticAlias (hname : Plain name) : ¬ Marked (staticAlias name).text := by
  rw [text_staticAlias]
  refine not_marked ?_
  unfold Emitter.staticType
  simp only [plain_append, hname, and_true]
  decide

end Statement

theorem Options.Unmarked.imports {o : Options} (ho : o.Unmarked) {enums : List String} (henums : ∀ n ∈ enums, Plain n) :
    ∀ s ∈ o.imports enums, ¬ Marked s.text := by
  intro s hs
  rcases List.mem_cons.mp hs with rfl | hs
  · exact Statement.not_marked_import (by decide) ho.library
  · obtain ⟨n, hn, rfl⟩ := List.mem_map.mp hs
    have hname : Plain n := henums n (List.mem_of_mem_filter hn)
    exact Statement.not_marked_import (by rwa [String.intercalate_singleton])
      (plain_append.mpr ⟨ho.enumImportPrefix, hname⟩)

namespace Emitter

theorem not_marked_enumEntries (e : Emitter) {values : List EnumValue} (h : ∀ value ∈ values, Plain value.name) :
    ¬ Marked (String.join (values.map e.enumEntry)) := by
  induction values with
  | nil =>
    rw [List.map_nil, String.join_nil]
    decide
  | cons value values ih =>
    obtain ⟨hvalue, hvalues⟩ := List.forall_mem_cons.mp h
    have hopen : ": Type.Literal('" = ": " ++ "Type.Literal('" := by decide
    have hmember : e.indent.text 1 ++ value.name ++ ": Type.Literal('" ++ Literal.escape value.name =
        e.indent.text 1 ++ value.name ++ ": " ++ ("Type.Literal('" ++ Literal.escape value.name) := by
      rw [hopen]
      simp only [String.append_assoc]
    have hname : Plain (e.indent.text 1 ++ value.name) := plain_append.mpr ⟨plain_indent _ _, hvalue⟩
    have hliteral : Plain ("Type.Literal('" ++ Literal.escape value.name) :=
      plain_append.mpr ⟨by decide, plain_escape.mpr hvalue⟩
    rw [List.map_cons, String.join_cons, enumEntry, marked_between (by decide) (by decide), or_iff_left (ih hvalues),
      hmember, marked_member hname]
    exact not_marked hliteral

end Emitter

namespace Generation
variable {d : Document} {o : Options}

theorem marked_modelSource (hd : d.PlainNames) (ho : o.Unmarked) {p : Model × Nat} (hp : p ∈ d.placedModels)
    (v : Variant) (ending : LineEnding) :
    Marked ((modelSource o p.1 v (d.resolvedModel p)).text ending) ↔ (d.resolvedModel p).unresolved ≠ [] := by
  have hm : p.1 ∈ d.models := Document.mem_models_of_placed hp
  have hname : Plain (p.1.name ++ v.exportSuffix) := plain_append.mpr ⟨hd.models p.1 hm, by cases v <;> decide⟩
  have hplain : (Expr.object ((d.resolvedModel p).schema v)).PlainNames := by
    rw [Document.resolvedModel, Document.schema_resolveModel]
    exact hd.expansion hm v p.2
  have himports : ∀ s ∈ o.imports (d.resolvedModel p).enumImports, ¬ Marked s.text :=
    ho.imports fun n hn => hd.enums n (Document.enumImports_sub hn)
  have hunresolved : (d.resolvedModel p).unresolved ≠ [] ↔ ((d.resolvedModel p).schema v).occurrences ≠ [] := by
    rw [Document.resolvedModel, Document.unresolved_resolveModel, Document.occurrences_resolveModel]
    simp only [ne_eq, List.eq_nil_iff_forall_not_mem, List.mem_eraseDups]
  have hobject := Emitter.marked_expr (e := Emitter.ofOptions o)
    (Emitter.not_marked_expression ho.typeOverrides) 0 _ hplain
  rw [Expr.occurrences_object, ← hunresolved] at hobject
  rw [SourceFile.marked_text, ← hobject]
  constructor
  · rintro ⟨s, hs, hmarked⟩
    rcases List.mem_append.mp hs with hs | hs
    · exact absurd hmarked (himports s hs)
    rcases List.mem_pair.mp hs with rfl | rfl
    · exact (Statement.marked_const true hname).mp hmarked
    · exact absurd hmarked (Statement.not_marked_staticAlias hname)
  · intro hmarked
    exact ⟨_, List.mem_append_right _ List.mem_cons_self, (Statement.marked_const true hname).mpr hmarked⟩

/-- The schema of an enum's values is an object with two members beside the values. -/
theorem not_marked_keyOf {name : String} (hname : Plain name) :
    ¬ Marked ("Type.KeyOf(Type.Object(" ++ name ++ "Const, \x7b $id: '#" ++ Literal.escape name ++
      "', additionalProperties: false \x7d))") := by
  have hid : "Const, \x7b $id: '#" = "Const, \x7b $id" ++ (": " ++ "'#") := by decide
  have hflag : "', additionalProperties: false \x7d))" = "', additionalProperties" ++ (": " ++ "false \x7d))") := by
    decide
  have hmembers : "Type.KeyOf(Type.Object(" ++ name ++ "Const, \x7b $id: '#" ++ Literal.escape name ++
      "', additionalProperties: false \x7d))" = ("Type.KeyOf(Type.Object(" ++ name ++ "Const, \x7b $id") ++ ": " ++
        (("'#" ++ Literal.escape name ++ "', additionalProperties") ++ ": " ++ "false \x7d))") := by
    rw [hid, hflag]
    simp only [String.append_assoc]
  have hfirst : Plain ("Type.KeyOf(Type.Object(" ++ name ++ "Const, \x7b $id") :=
    plain_append.mpr ⟨plain_append.mpr ⟨by decide, hname⟩, by decide⟩
  have hsecond : Plain ("'#" ++ Literal.escape name ++ "', additionalProperties") :=
    plain_append.mpr ⟨plain_append.mpr ⟨by decide, plain_escape.mpr hname⟩, by decide⟩
  rw [hmembers, marked_member hfirst, marked_member hsecond]
  exact not_marked (by decide)

theorem not_marked_enumSource (ho : o.Unmarked) {e : Enum} (hname : Plain e.name)
    (hvalues : ∀ value ∈ e.values, Plain value.name) (ending : LineEnding) :
    ¬ Marked ((enumSource o e).text ending) := by
  have hconst : Plain (e.name ++ "Const") := plain_append.mpr ⟨hname, by decide⟩
  rw [SourceFile.marked_text]
  rintro ⟨s, hs, hmarked⟩
  rcases List.mem_append.mp hs with hs | hs
  · exact ho.imports (fun n hn => absurd hn List.not_mem_nil) s hs hmarked
  rcases List.mem_cons.mp hs with rfl | hs
  · rw [Statement.marked_const false hconst, marked_append_right (by decide), marked_append_left (by decide)] at hmarked
    exact Emitter.not_marked_enumEntries _ hvalues hmarked
  rcases List.mem_pair.mp hs with rfl | rfl
  · exact not_marked_keyOf hname ((Statement.marked_const true hname).mp hmarked)
  · exact Statement.not_marked_staticAlias hname hmarked

end Generation

/-- The files of an entity hold the mark of a placeholder exactly when a name that it refers to was not resolved. -/
theorem Document.marked_iff_unresolved {d : Document} {o : Options} (hd : d.PlainNames) (ho : o.Unmarked) :
    ∀ e ∈ d.generate o, (Marked e.canonical ↔ e.unresolved ≠ []) ∧
      (e.kind = .model → ∃ text, e.input = some text ∧ (Marked text ↔ e.unresolved ≠ [])) := by
  intro e he
  rw [generate_eq] at he
  rcases List.mem_append.mp he with he | he
  · obtain ⟨p, hp, rfl⟩ := List.mem_map.mp he
    have hfile := fun v => Generation.text_modelSource (o := o) (m := p.1) (d.nodup_enumImports p) v
    have hmarked := fun v => Generation.marked_modelSource hd ho hp v o.lineEnding
    simp only [← hfile] at hmarked
    exact ⟨hmarked .canonical, fun _ => ⟨_, rfl, hmarked .input⟩⟩
  · obtain ⟨enum, henum, rfl⟩ := List.mem_map.mp he
    have hname : Plain enum.name := hd.enums enum.name (List.mem_map_of_mem henum)
    have hmarked := Generation.not_marked_enumSource ho hname (hd.values enum henum) o.lineEnding
    rw [← Generation.text_enumSource] at hmarked
    exact ⟨iff_of_false hmarked fun h => h rfl, fun h => nomatch h⟩

theorem Document.marked_iff_unresolved_team :
    let user : Model := ⟨"User", [.new "id" "Int", .new "role" "Role", .new "team" "Team"]⟩
    let d : Document := ⟨[user], [⟨"Role", [⟨"USER"⟩]⟩]⟩
    let o : Options := { lineEnding := .crlf, typeOverrides := [("Int", ":Type.Number():")] }
    d.PlainNames ∧ o.Unmarked ∧ Marked (Generation.modelEntity o user (d.resolvedModel (user, 0))).canonical ∧
      ¬ Marked (Generation.enumEntity o ⟨"Role", [⟨"USER"⟩]⟩).canonical := by
  intro user d o
  have hd : d.PlainNames := ⟨by decide, by decide, by decide, by decide⟩
  have ho : o.Unmarked := ⟨by decide, by decide, by decide +kernel⟩
  have hall := marked_iff_unresolved hd ho
  rw [generate_eq] at hall
  refine ⟨hd, ho, (hall _ (List.mem_append_left _ List.mem_cons_self)).1.mpr (by decide), fun h => ?_⟩
  exact (hall _ (List.mem_append_right _ List.mem_cons_self)).1.mp h rfl

end SchemaForge
