import SchemaForge.Proofs.Emitter.Template
import SchemaForge.Proofs.Generation.Pass
import SchemaForge.Proofs.Text.Replacing

/-! A pass under another override of an expression. The trees of a pass are built from the document alone, and only
    the expressions of their scalars are looked up under a tag. The scalars of a tree are those that name the types of
    fields, of the model itself or of one that is inlined into it. So an override is seen where a field has its tag
    for a type, and nowhere else; names of models and of enums are no tags that anything is looked up under. -/

namespace SchemaForge

theorem TypeMap.expression_insert (m : TypeMap) (t expression : String) (s : Scalar) :
    (m.insert t expression).expression s = if s.tag = t then expression else m.expression s := by
  rw [TypeMap.expression, insert, Assoc.lookup_insert]
  by_cases h : s.tag = t
  · rw [if_pos h, if_pos h]
  · rw [if_neg h, if_neg h]
    rfl

/-! ### The scalars of a resolved schema -/

theorem Scalar.mem_singleton_iff {type : String} {s t : Scalar} (h : ofTag? type = some t) :
    s ∈ [t] ↔ type = s.tag := by
  rw [List.mem_singleton, ← tag_of_ofTag? h]
  exact ⟨fun hs => congrArg tag hs.symm, fun htag => (tag_injective htag).symm⟩

theorem Scalar.ne_tag_of_none {type : String} (h : ofTag? type = none) (s : Scalar) : type ≠ s.tag := by
  rintro rfl
  rw [ofTag?_tag] at h
  cases h

theorem Field.scalars_propertyOver (f : Field) (v : Variant) (leaf : Expr) :
    (f.propertyOver v leaf).expr.scalars = leaf.scalars := by
  unfold propertyOver
  cases f.isOptionalIn v <;> cases f.isList <;> rfl

/-- The scalars of an object that has a property for each field. -/
theorem Property.mem_scalars_fields {fs : List Field} {v : Variant} {leaf : String → Expr} {s : Scalar} :
    s ∈ Property.scalars (fs.map fun f => f.propertyOver v (leaf f.type)) ↔ ∃ f ∈ fs, s ∈ (leaf f.type).scalars := by
  rw [scalars_eq_flatMap, List.flatMap_map, List.mem_flatMap]
  simp only [Field.scalars_propertyOver]

namespace Document
variable {d : Document} {m : Model} {s : Scalar}

theorem mem_scalars_nestedLeaf {type : String} : s ∈ (d.nestedLeaf type).scalars ↔ type = s.tag := by
  unfold nestedLeaf
  cases h : Scalar.ofTag? type with
  | some t => exact Scalar.mem_singleton_iff h
  | none =>
    have hno := Scalar.ne_tag_of_none h s
    by_cases henum : type ∈ d.enumNames <;> simp [henum, hno, Expr.scalars]

/-- Fields with a scalar are kept in an inlined object. -/
theorem mem_scalars_inlinedObject {v : Variant} {name : String} {number : Nat} :
    s ∈ (d.inlinedObject v name m number).scalars ↔ ∃ f ∈ m.fields, f.type = s.tag := by
  rw [ObjectSchema.scalars, inlinedObject, Property.mem_scalars_fields]
  simp only [mem_scalars_nestedLeaf, List.mem_filter]
  constructor
  · rintro ⟨f, ⟨hf, -⟩, htype⟩
    exact ⟨f, hf, htype⟩
  · rintro ⟨f, hf, htype⟩
    exact ⟨f, ⟨hf, by rw [htype, Scalar.ofTag?_tag]; rfl⟩, htype⟩

theorem mem_scalars_expandedLeaf {v : Variant} {last : Nat} {type : String} :
    s ∈ (d.expandedLeaf m v last type).scalars ↔ type = s.tag ∨ Scalar.ofTag? type = none ∧ type ∉ d.enumNames ∧
      ∃ dependency, d.model? type = some dependency ∧ ∃ f ∈ dependency.fields, f.type = s.tag := by
  unfold expandedLeaf
  cases h : Scalar.ofTag? type with
  | some t => simp only [Expr.scalars, Scalar.mem_singleton_iff h, reduceCtorEq, false_and, or_false]
  | none =>
    have hno := Scalar.ne_tag_of_none h s
    by_cases henum : type ∈ d.enumNames
    · simp [henum, hno, Expr.scalars]
    · cases hmodel : d.model? type with
      | none => simp [henum, hno, Expr.scalars]
      | some dependency => simp [henum, hno, Expr.scalars_object, mem_scalars_inlinedObject]

/-- A resolved schema has the scalars that its model's fields have for types, and those of the models inlined. -/
theorem mem_scalars_expansion {v : Variant} {last : Nat} : s ∈ (d.expansion m v last).scalars ↔
    (∃ f ∈ m.fields, f.type = s.tag) ∨
      ∃ dependency, d.Inlines m dependency ∧ ∃ f ∈ dependency.fields, f.type = s.tag := by
  rw [ObjectSchema.scalars, expansion, Property.mem_scalars_fields]
  simp only [mem_scalars_expandedLeaf]
  constructor
  · rintro ⟨f, hf, htype | ⟨hnone, henum, dependency, hmodel, hfields⟩⟩
    · exact Or.inl ⟨f, hf, htype⟩
    · exact Or.inr ⟨dependency, ⟨f, hf, hnone, henum, hmodel⟩, hfields⟩
  · rintro (⟨f, hf, htype⟩ | ⟨dependency, ⟨f, hf, hnone, henum, hmodel⟩, hfields⟩)
    · exact ⟨f, hf, Or.inl htype⟩
    · exact ⟨f, hf, Or.inr ⟨hnone, henum, dependency, hmodel, hfields⟩⟩

/-- Every scalar of a pass is the type of a field of the document. -/
theorem exists_field_of_mem_scalars {v : Variant} {last : Nat} (hm : m ∈ d.models)
    (h : s ∈ (d.expansion m v last).scalars) : ∃ m ∈ d.models, ∃ f ∈ m.fields, f.type = s.tag := by
  rcases mem_scalars_expansion.mp h with hfields | ⟨dependency, ⟨f, -, -, -, hmodel⟩, hfields⟩
  · exact ⟨m, hm, hfields⟩
  · exact ⟨dependency, List.mem_of_find?_eq_some hmodel, hfields⟩

end Document

/-! ### Files and passes -/

/-- The schema's text can be read off a model's file. -/
theorem Emitter.object_eq_of_modelFile_eq {e e' : Emitter} {model : String} {v : Variant} {schema : ObjectSchema}
    {imports : List String} (h : e.modelFile model v schema imports = e'.modelFile model v schema imports)
    (hending : e.lineEnding = e'.lineEnding) : e.object schema 0 = e'.object schema 0 := by
  rw [modelFile, modelFile, file, file, hending] at h
  simpa only [String.append_right_inj, String.append_left_inj, String.append_assoc] using
    e'.lineEnding.apply_injective h

namespace Document
variable (d : Document) (o : Options) (t expression : String)

theorem expression_withTypeOverride (s : Scalar) :
    (Emitter.ofOptions (o.withTypeOverride t expression)).typeMap.expression s =
      if s.tag = t then expression else (Emitter.ofOptions o).typeMap.expression s :=
  TypeMap.expression_insert ⟨o.typeOverrides⟩ t expression s

/-- A model's entity is the same one if the override does not matter at the scalars of its schemas. -/
theorem modelEntity_withTypeOverride {p : Model × Nat} (h : ∀ v, ∀ s ∈ (d.expansion p.1 v p.2).scalars, s.tag = t →
    (Emitter.ofOptions o).typeMap.expression s = expression) :
    Generation.modelEntity (o.withTypeOverride t expression) p.1 (d.resolvedModel p) =
      Generation.modelEntity o p.1 (d.resolvedModel p) := by
  have hobject : ∀ v, (Emitter.ofOptions (o.withTypeOverride t expression)).object ((d.resolvedModel p).schema v) 0 =
      (Emitter.ofOptions o).object ((d.resolvedModel p).schema v) 0 := by
    intro v
    rw [resolvedModel, schema_resolveModel]
    refine Emitter.object_congr rfl fun s hs => ?_
    rw [expression_withTypeOverride]
    split
    · next htag => exact (h v s hs htag).symm
    · rfl
  rw [Generation.modelEntity_eq, Generation.modelEntity_eq]
  refine congrArg ((d.resolvedModel p).entity p.1.name) (funext fun v => ?_)
  rw [Emitter.modelFile, Emitter.modelFile, hobject v]
  rfl

/-- A model's entity tells what the override says when one of its fields has the tag. -/
theorem expression_eq_of_modelEntity_eq {p : Model × Nat} {s : Scalar} (hfield : ∃ f ∈ p.1.fields, f.type = s.tag)
    (h : Generation.modelEntity (o.withTypeOverride s.tag expression) p.1 (d.resolvedModel p) =
      Generation.modelEntity o p.1 (d.resolvedModel p)) : (Emitter.ofOptions o).typeMap.expression s = expression := by
  have hmem : s ∈ ((d.resolvedModel p).schema .canonical).scalars := by
    rw [resolvedModel, schema_resolveModel]
    exact mem_scalars_expansion.mpr (Or.inl hfield)
  have hothers : ∀ u ≠ s, (Emitter.ofOptions (o.withTypeOverride s.tag expression)).typeMap.expression u =
      (Emitter.ofOptions o).typeMap.expression u := by
    intro u hu
    rw [expression_withTypeOverride, if_neg fun htag => hu (Scalar.tag_injective htag)]
  rw [Generation.modelEntity_eq, Generation.modelEntity_eq] at h
  have hobject := Emitter.object_eq_of_modelFile_eq (congrArg Entity.canonical h) rfl
  have hexpression := Emitter.expression_eq_of_object_eq hobject rfl hothers hmem
  rw [expression_withTypeOverride, if_pos rfl] at hexpression
  exact hexpression.symm

/-- Adding an override for a tag, in place of an earlier one, gives the same entities when the tag names no scalar,
    when no field of the document has it for a type, or when the override says what the scalar's expression is
    anyway; in every other case the entities are different ones. -/
theorem generate_withTypeOverride_eq_iff : d.generate (o.withTypeOverride t expression) = d.generate o ↔
    Scalar.ofTag? t = none ∨ (∀ m ∈ d.models, ∀ f ∈ m.fields, f.type ≠ t) ∨
      (Emitter.ofOptions o).typeMap.expressionOfTag? t = some expression := by
  rw [generate_eq, generate_eq]
  constructor
  · intro h
    obtain ⟨hmodels, -⟩ := List.append_inj h (by rw [List.length_map, List.length_map])
    cases htag : Scalar.ofTag? t with
    | none => exact Or.inl rfl
    | some s =>
      obtain rfl := Scalar.tag_of_ofTag? htag
      -- Otherwise some model has a field with the tag, and its text tells the two expressions apart.
      refine Or.inr ?_
      by_contra hall
      simp only [not_or, not_forall, not_not] at hall
      obtain ⟨⟨m, hm, f, hf, htype⟩, hexpression⟩ := hall
      rw [← map_fst_placed d d.models 0] at hm
      obtain ⟨p, hp, rfl⟩ := List.mem_map.mp hm
      have hsame := d.expression_eq_of_modelEntity_eq o expression ⟨f, hf, htype⟩ (List.map_inj_left.mp hmodels p hp)
      exact hexpression (by rw [TypeMap.expressionOfTag?, htag, Option.map_some, hsame])
  · intro h
    refine congrArg₂ (· ++ ·) (List.map_congr_left fun p hp => ?_) rfl
    refine d.modelEntity_withTypeOverride o t expression fun v s hs htag => ?_
    subst htag
    obtain ⟨m, hm, f, hf, htype⟩ := exists_field_of_mem_scalars (mem_models_of_placed hp) hs
    rcases h with hnone | hunused | hexpression
    · rw [Scalar.ofTag?_tag] at hnone
      cases hnone
    · exact absurd htype (hunused m hm f hf)
    · rw [TypeMap.expressionOfTag?, Scalar.ofTag?_tag] at hexpression
      exact Option.some.inj hexpression

end Document

end SchemaForge
