import Mathlib.Data.List.Basic
import SchemaForge.Proofs.Resolution.Expansion

/-! The names that a model's resolved schemas hold. Inlining leaves the same names in both variants, in the same
    places and under any number: the names that no model stands for, and those that the inlined models refer
    to. Linking turns the enums among them into references and keeps the others as placeholders. -/

namespace SchemaForge

namespace Field

theorem enumNames_property (f : Field) (v : Variant) : (f.property v).expr.enumNames = [] := by
  have hleaf : f.leaf.enumNames = [] := by
    unfold leaf
    cases Scalar.ofTag? f.type <;> rfl
  unfold property base
  cases f.isOptionalIn v <;> cases f.isList <;> exact hleaf

end Field

theorem Model.enumNames_schema (m : Model) (place : Placement) (v : Variant) (number : Nat) :
    (m.schema place v number).enumNames = [] := by
  rw [schema, ObjectSchema.enumNames, Property.enumNames_eq_flatMap, List.flatMap_map]
  exact List.flatMap_eq_nil_iff.mpr fun f _ => f.enumNames_property v

namespace Document
variable {d : Document} {m : Model}

/-! ### What inlining leaves -/

/-- What a name leaves when its model is inlined: itself if it has none, and else what the kept fields of its
    model refer to. -/
def namesLeftBy (d : Document) (name : String) : List String :=
  match d.inlinable? name with
  | none => [name]
  | some m => (m.keptFields (.inlined d.modelNames)).flatMap (·.references)

/-- The names in a model's schemas once the models that it refers to are inlined. -/
def namesLeft (d : Document) (m : Model) : List String :=
  (m.fields.flatMap (·.references)).flatMap d.namesLeftBy

/-- The schema of a model once the models that it refers to are inlined. -/
def inlinedSchema (d : Document) (m : Model) (v : Variant) (last : Nat) : ObjectSchema :=
  (m.schema .topLevel v (last + 1)).bind (d.inlinedAt v (m.references .topLevel).names (last + 1))

theorem mem_references_topLevel {n : String} (h : n ∈ m.fields.flatMap (·.references)) :
    n ∈ (m.references .topLevel).names := by
  rwa [Model.names_references, Model.keptFields_topLevel, List.mem_eraseDups]

theorem occurrences_inlinedSchema (d : Document) (m : Model) (v : Variant) (last : Nat) :
    (d.inlinedSchema m v last).occurrences = d.namesLeft m := by
  rw [inlinedSchema, ObjectSchema.occurrences_bind, Model.occurrences_schema, Model.keptFields_topLevel, namesLeft]
  refine List.flatMap_congr fun n hn => ?_
  unfold namesLeftBy
  cases h : d.inlinable? n with
  | none => rw [inlinedAt_of_none h, Expr.occurrences]
  | some dep => rw [inlinedAt_of_some h (mem_references_topLevel hn), Expr.occurrences_object, Model.occurrences_schema]

theorem enumNames_inlinedSchema (d : Document) (m : Model) (v : Variant) (last : Nat) :
    (d.inlinedSchema m v last).enumNames = [] := by
  rw [inlinedSchema, ObjectSchema.enumNames_bind _ (m.enumNames_schema .topLevel v (last + 1))]
  -- A name stays or becomes the object of a model, and neither holds an enum yet.
  refine List.flatMap_eq_nil_iff.mpr fun n _ => ?_
  unfold inlinedAt
  cases d.inlinable? n with
  | none => rfl
  | some dep =>
    have hobject : ∀ number, (Expr.object (dep.schema (.inlined d.modelNames) v number)).enumNames = [] :=
      fun number => dep.enumNames_schema (.inlined d.modelNames) v number
    by_cases hn : n ∈ (m.references .topLevel).names
    · simp only [hn, if_true, hobject]
    · simp only [hn, if_false, Expr.enumNames]

/-! ### What linking makes of it -/

theorem flatMap_linked (names : List String) :
    (names.flatMap fun n => (d.linked n).enumNames) = names.filter (· ∈ d.enumNames) ∧
      (names.flatMap fun n => (d.linked n).occurrences) = names.filter (· ∉ d.enumNames) := by
  induction names with
  | nil => exact ⟨rfl, rfl⟩
  | cons n names ih =>
    obtain ⟨henums, hothers⟩ := ih
    rw [List.flatMap_cons, List.flatMap_cons, henums, hothers]
    by_cases h : n ∈ d.enumNames <;> simp [linked, enum?_isSome, h, Expr.enumNames, Expr.occurrences]

theorem schema_eq_linked (d : Document) (m : Model) (v : Variant) (last : Nat) :
    ((d.resolveModel m).run last).1.schema v = (d.inlinedSchema m v last).bind d.linked := by
  rw [run_resolveModel, run_resolve (occurrences_input_sub_canonical m (last + 1)), inlinedSchema,
    ObjectSchema.bind_bind]
  cases v <;> rfl

theorem inlined_resolveModel (d : Document) (m : Model) (last : Nat) :
    ((d.resolveModel m).run last).1.inlined = d.inlinedNames m := by
  rw [run_resolveModel, run_resolve (occurrences_input_sub_canonical m (last + 1)), dependencies_references]

theorem enumImports_resolveModel (d : Document) (m : Model) (last : Nat) :
    ((d.resolveModel m).run last).1.enumImports = ((d.namesLeft m).filter (· ∈ d.enumNames)).eraseDups := by
  rw [References.eraseDups_filter, ← occurrences_inlinedSchema d m .canonical last,
    ← ObjectSchema.names_placeholders, run_resolveModel, run_resolve (occurrences_input_sub_canonical m (last + 1))]
  exact List.filter_congr fun n _ => enum?_isSome

theorem unresolved_resolveModel (d : Document) (m : Model) (last : Nat) :
    ((d.resolveModel m).run last).1.unresolved = ((d.namesLeft m).filter (· ∉ d.enumNames)).eraseDups := by
  rw [References.eraseDups_filter, ← occurrences_inlinedSchema d m .canonical last,
    ← ObjectSchema.names_placeholders, run_resolveModel, run_resolve (occurrences_input_sub_canonical m (last + 1))]
  exact List.filter_congr fun n _ => enum?_isNone

theorem enumNames_resolveModel (d : Document) (m : Model) (v : Variant) (last : Nat) :
    (((d.resolveModel m).run last).1.schema v).enumNames = (d.namesLeft m).filter (· ∈ d.enumNames) := by
  rw [schema_eq_linked, ObjectSchema.enumNames_bind _ (enumNames_inlinedSchema d m v last),
    occurrences_inlinedSchema]
  exact (flatMap_linked _).1

theorem occurrences_resolveModel (d : Document) (m : Model) (v : Variant) (last : Nat) :
    (((d.resolveModel m).run last).1.schema v).occurrences = (d.namesLeft m).filter (· ∉ d.enumNames) := by
  rw [schema_eq_linked, ObjectSchema.occurrences_bind, occurrences_inlinedSchema]
  exact (flatMap_linked _).2

/-! ### Where the names come from -/

/-- The model is inlined in the place of a reference of `m`. -/
def Inlines (d : Document) (m dependency : Model) : Prop :=
  ∃ f ∈ m.fields, Scalar.ofTag? f.type = none ∧ f.type ∉ d.enumNames ∧ d.model? f.type = some dependency

end Document

theorem Field.mem_references {f : Field} {n : String} :
    n ∈ f.references ↔ f.type = n ∧ Scalar.ofTag? n = none := by
  unfold references
  cases h : Scalar.ofTag? f.type with
  | some s =>
    refine ⟨fun hn => absurd hn List.not_mem_nil, ?_⟩
    rintro ⟨rfl, hn⟩
    rw [h] at hn
    cases hn
  | none =>
    rw [List.mem_singleton]
    constructor
    · rintro rfl
      exact ⟨rfl, h⟩
    · rintro ⟨rfl, -⟩
      rfl

namespace Document
variable {d : Document} {m : Model} {n : String}

theorem mem_flatMap_references {fields : List Field} :
    n ∈ fields.flatMap (·.references) ↔ Scalar.ofTag? n = none ∧ ∃ f ∈ fields, f.type = n := by
  rw [List.mem_flatMap]
  constructor
  · rintro ⟨f, hf, hn⟩
    obtain ⟨htype, hnone⟩ := Field.mem_references.mp hn
    exact ⟨hnone, f, hf, htype⟩
  · rintro ⟨hnone, f, hf, htype⟩
    exact ⟨f, hf, Field.mem_references.mpr ⟨htype, hnone⟩⟩

/-- An inlined model leaves the names of its field types, save those of models. -/
theorem mem_references_inlined : n ∈ (m.keptFields (.inlined d.modelNames)).flatMap (·.references) ↔
    Scalar.ofTag? n = none ∧ n ∉ d.modelNames ∧ ∃ f ∈ m.fields, f.type = n := by
  rw [mem_flatMap_references]
  refine and_congr_right fun hnone => ?_
  simp only [Model.keptFields, List.mem_filter, Placement.keeps_inlined]
  constructor
  · rintro ⟨f, ⟨hf, hkept⟩, rfl⟩
    refine ⟨?_, f, hf, rfl⟩
    simpa [hnone] using hkept
  · rintro ⟨hmodel, f, hf, rfl⟩
    exact ⟨f, ⟨hf, by simp [hmodel]⟩, rfl⟩

theorem mem_namesLeft : n ∈ d.namesLeft m ↔ Scalar.ofTag? n = none ∧
    ((d.inlinable? n = none ∧ ∃ f ∈ m.fields, f.type = n) ∨
      n ∉ d.modelNames ∧ ∃ dependency, d.Inlines m dependency ∧ ∃ f ∈ dependency.fields, f.type = n) := by
  rw [namesLeft, List.mem_flatMap]
  constructor
  · rintro ⟨x, hx, hn⟩
    obtain ⟨hxnone, f, hf, rfl⟩ := mem_flatMap_references.mp hx
    unfold namesLeftBy at hn
    cases h : d.inlinable? f.type with
    | none =>
      rw [h] at hn
      obtain rfl := List.mem_singleton.mp hn
      exact ⟨hxnone, Or.inl ⟨h, f, hf, rfl⟩⟩
    | some dependency =>
      rw [h] at hn
      obtain ⟨hnone, hmodel, hfields⟩ := mem_references_inlined.mp hn
      obtain ⟨henum, hsome⟩ := inlinable?_eq_some.mp h
      exact ⟨hnone, Or.inr ⟨hmodel, dependency, ⟨f, hf, hxnone, enum?_eq_none.mp henum, hsome⟩, hfields⟩⟩
  · rintro ⟨hnone, ⟨h, hfields⟩ | ⟨hmodel, dependency, ⟨f, hf, hfnone, henum, hsome⟩, hfields⟩⟩
    · refine ⟨n, mem_flatMap_references.mpr ⟨hnone, hfields⟩, ?_⟩
      rw [namesLeftBy, h]
      exact List.mem_singleton_self n
    · have h := inlinable?_eq_some.mpr ⟨enum?_eq_none.mpr henum, hsome⟩
      refine ⟨f.type, mem_flatMap_references.mpr ⟨hfnone, f, hf, rfl⟩, ?_⟩
      rw [namesLeftBy, h]
      exact mem_references_inlined.mpr ⟨hnone, hmodel, hfields⟩

theorem mem_enumImports_iff (last : Nat) : n ∈ ((d.resolveModel m).run last).1.enumImports ↔
    Scalar.ofTag? n = none ∧ n ∈ d.enumNames ∧ ((∃ f ∈ m.fields, f.type = n) ∨
      n ∉ d.modelNames ∧ ∃ dependency, d.Inlines m dependency ∧ ∃ f ∈ dependency.fields, f.type = n) := by
  rw [enumImports_resolveModel, List.mem_eraseDups, List.mem_filter, mem_namesLeft, decide_eq_true_eq, and_assoc]
  refine and_congr_right fun _ => ?_
  rw [and_comm]
  refine and_congr_right fun henum => ?_
  -- An enum is never inlined, though a model may have its name.
  have hnone : d.inlinable? n = none := inlinable?_eq_none.mpr fun _ => henum
  simp only [hnone, true_and]

theorem mem_unresolved_iff (last : Nat) : n ∈ ((d.resolveModel m).run last).1.unresolved ↔
    Scalar.ofTag? n = none ∧ n ∉ d.modelNames ∧ n ∉ d.enumNames ∧ ((∃ f ∈ m.fields, f.type = n) ∨
      ∃ dependency, d.Inlines m dependency ∧ ∃ f ∈ dependency.fields, f.type = n) := by
  rw [unresolved_resolveModel, List.mem_eraseDups, List.mem_filter, mem_namesLeft, decide_eq_true_eq, and_assoc]
  refine and_congr_right fun _ => ?_
  constructor
  · rintro ⟨⟨h, hfields⟩ | ⟨hmodel, hfields⟩, henum⟩
    · exact ⟨fun hmodel => henum (inlinable?_eq_none.mp h hmodel), henum, Or.inl hfields⟩
    · exact ⟨hmodel, henum, Or.inr hfields⟩
  · rintro ⟨hmodel, henum, hfields | hfields⟩
    · exact ⟨Or.inl ⟨inlinable?_of_not_mem hmodel, hfields⟩, henum⟩
    · exact ⟨Or.inr ⟨hmodel, hfields⟩, henum⟩

end Document

end SchemaForge
