import SchemaForge.Proofs.Resolution.Passes

/-! The resolved schemas of a model, built from the document in one go. A field's leaf is looked up
    once: a scalar, an enum, an object for a model, or a placeholder. The object has the fields of the
    model that refer to no model, under a number that counts the models referred to before it. The two
    passes of a resolution yield exactly these trees. -/

namespace SchemaForge

/-- The property of a field whose values have this leaf: a list of them inside, an option outside. -/
def Field.propertyOver (f : Field) (v : Variant) (leaf : Expr) : Property :=
  let base := if f.isList then .array leaf else leaf
  ⟨f.name, if f.isOptionalIn v then .optional base else base⟩

/-- The names that a model's fields have as types and that are no scalars, each at its first place. -/
def Model.referencedNames (m : Model) : List String :=
  ((m.fields.map (·.type)).filter fun t => (Scalar.ofTag? t).isNone).eraseDups

def Resolved.schema (r : Resolved) : Variant → ObjectSchema
  | .canonical => r.canonical
  | .input => r.input

namespace Document

/-- Those of the names that a model refers to that are models and no enums. -/
def inlinedNames (d : Document) (m : Model) : List String :=
  m.referencedNames.filter fun t => decide (t ∈ d.modelNames) && decide (t ∉ d.enumNames)

def nestedLeaf (d : Document) (type : String) : Expr :=
  match Scalar.ofTag? type with
  | some s => .scalar s
  | none => if type ∈ d.enumNames then .enumRef type else .placeholder type

/-- The object of a model that is inlined under a name and a number. -/
def inlinedObject (d : Document) (v : Variant) (name : String) (m : Model) (number : Nat) : ObjectSchema :=
  let kept := m.fields.filter fun f => (Scalar.ofTag? f.type).isSome || decide (f.type ∉ d.modelNames)
  ⟨v.dependencyId name number, kept.map fun f => f.propertyOver v (d.nestedLeaf f.type), false⟩

/-- The leaf of a type in a model's own schema, from the number that was handed out before the model. -/
def expandedLeaf (d : Document) (m : Model) (v : Variant) (last : Nat) (type : String) : Expr :=
  match Scalar.ofTag? type with
  | some s => .scalar s
  | none =>
    if type ∈ d.enumNames then .enumRef type
    else
      match d.model? type with
      | some dependency =>
        .object (d.inlinedObject v type dependency (last + 1 + ((d.inlinedNames m).idxOf type + 1)))
      | none => .placeholder type

/-- The resolved schema of a model, from the number that was handed out before the model. -/
def expansion (d : Document) (m : Model) (v : Variant) (last : Nat) : ObjectSchema :=
  ⟨v.modelId m.name, m.fields.map fun f => f.propertyOver v (d.expandedLeaf m v last f.type), false⟩

/-- A leaf of an inlined object comes from a scalar or an enum, or is left as a placeholder. -/
theorem nestedLeaf_cases (d : Document) (type : String) :
    (∃ s, d.nestedLeaf type = .scalar s) ∨ (type ∈ d.enumNames ∧ d.nestedLeaf type = .enumRef type) ∨
      d.nestedLeaf type = .placeholder type := by
  unfold nestedLeaf
  cases Scalar.ofTag? type with
  | some s => exact Or.inl ⟨s, rfl⟩
  | none =>
    by_cases h : type ∈ d.enumNames
    · exact Or.inr (Or.inl ⟨h, if_pos h⟩)
    · exact Or.inr (Or.inr (if_neg h))

/-- A leaf of a model's own schema may be an inlined object too, and which of these it is depends on the type alone. -/
theorem expandedLeaf_cases (d : Document) (m : Model) (type : String) :
    (∃ s, ∀ v last, d.expandedLeaf m v last type = .scalar s) ∨
    (type ∈ d.enumNames ∧ ∀ v last, d.expandedLeaf m v last type = .enumRef type) ∨
    (∀ v last, d.expandedLeaf m v last type = .placeholder type) ∨
    ∃ dependency, d.model? type = some dependency ∧ ∀ v last, d.expandedLeaf m v last type =
      .object (d.inlinedObject v type dependency (last + 1 + ((d.inlinedNames m).idxOf type + 1))) := by
  unfold expandedLeaf
  cases Scalar.ofTag? type with
  | some s => exact Or.inl ⟨s, fun _ _ => rfl⟩
  | none =>
    by_cases h : type ∈ d.enumNames
    · exact Or.inr (Or.inl ⟨h, fun _ _ => if_pos h⟩)
    · refine Or.inr (Or.inr ?_)
      cases hm : d.model? type with
      | none => exact Or.inl fun _ _ => if_neg h
      | some dependency => exact Or.inr ⟨dependency, rfl, fun _ _ => if_neg h⟩

end Document

/-! ### Replacing the leaves of a schema -/

theorem Field.bind_leaf (f : Field) (σ : String → Expr) : f.leaf.bind σ =
    match Scalar.ofTag? f.type with
    | some s => .scalar s
    | none => σ f.type := by
  unfold Field.leaf
  cases Scalar.ofTag? f.type <;> rfl

theorem Field.bind_property (f : Field) (v : Variant) (σ : String → Expr) :
    (⟨(f.property v).name, (f.property v).expr.bind σ⟩ : Property) = f.propertyOver v (f.leaf.bind σ) := by
  unfold Field.property Field.propertyOver Field.base
  cases f.isOptionalIn v <;> cases f.isList <;> rfl

theorem Model.bind_schema (m : Model) (place : Placement) (v : Variant) (number : Nat) (σ : String → Expr) :
    (m.schema place v number).bind σ =
      ⟨place.id v m.name number, (m.keptFields place).map fun f => f.propertyOver v (f.leaf.bind σ), false⟩ := by
  rw [Model.schema, ObjectSchema.bind, Property.bindAll_eq_map, List.map_map]
  congr 1
  apply List.map_congr_left
  intro f _
  exact f.bind_property v σ

theorem Model.keptFields_topLevel (m : Model) : m.keptFields .topLevel = m.fields :=
  List.filter_eq_self.mpr fun _ _ => rfl

theorem Placement.keeps_inlined (suppressed : List String) (f : Field) :
    (Placement.inlined suppressed).keeps f = ((Scalar.ofTag? f.type).isSome || decide (f.type ∉ suppressed)) := by
  unfold Placement.keeps
  rw [Bool.eq_iff_iff]
  cases h : Scalar.ofTag? f.type with
  | some s => simp [Field.references, h]
  | none =>
    simp only [Field.references, h, Bool.not_eq_true', List.any_eq_false, List.contains_eq_mem, List.mem_singleton,
      decide_eq_true_eq, Option.isSome_none, Bool.false_or]
    constructor
    · intro hne hf
      exact hne f.type hf rfl
    · rintro hf name hname rfl
      exact hf hname

theorem Model.flatMap_references (fields : List Field) :
    fields.flatMap (·.references) = (fields.map (·.type)).filter fun t => (Scalar.ofTag? t).isNone := by
  induction fields with
  | nil => rfl
  | cons f fields ih =>
    rw [List.flatMap_cons, List.map_cons, ih, Field.references]
    cases h : Scalar.ofTag? f.type <;> simp [h]

theorem Model.names_references_topLevel (m : Model) : (m.references .topLevel).names = m.referencedNames := by
  rw [Model.names_references, Model.keptFields_topLevel, Model.flatMap_references]
  rfl

/-! ### The passes and the expansion -/

namespace Document
variable {d : Document} {m : Model}

theorem dependencies_references (d : Document) (m : Model) :
    d.dependencies (m.references .topLevel).names = d.inlinedNames m := by
  rw [dependencies, Model.names_references_topLevel, inlinedNames]
  simp only [inlinable?_isSome]

/-- Once enums are linked, an inlined model is its object. -/
theorem bind_linked_schema (m : Model) (v : Variant) (number : Nat) :
    (m.schema (.inlined d.modelNames) v number).bind d.linked = d.inlinedObject v m.name m number := by
  have hkept : m.keptFields (.inlined d.modelNames) =
      m.fields.filter fun f => (Scalar.ofTag? f.type).isSome || decide (f.type ∉ d.modelNames) :=
    List.filter_congr fun f _ => Placement.keeps_inlined d.modelNames f
  have hleaf : ∀ f : Field, f.leaf.bind d.linked = d.nestedLeaf f.type := by
    intro f
    rw [Field.bind_leaf, nestedLeaf]
    cases Scalar.ofTag? f.type with
    | some s => rfl
    | none => simp only [linked, enum?_isSome, decide_eq_true_eq]
  rw [Model.bind_schema, hkept]
  simp only [hleaf]
  rfl

/-- What the passes put in the place of a field's leaf is the leaf of its type. -/
theorem bind_resolvedAt_leaf {f : Field} (hf : f ∈ m.fields) (v : Variant) (last : Nat) :
    f.leaf.bind (d.resolvedAt v (m.references .topLevel).names (last + 1)) = d.expandedLeaf m v last f.type := by
  rw [Field.bind_leaf, expandedLeaf]
  cases hs : Scalar.ofTag? f.type with
  | some s => rfl
  | none =>
    have hmem : f.type ∈ (m.references .topLevel).names := by
      rw [Model.names_references_topLevel, Model.referencedNames, List.mem_eraseDups, List.mem_filter]
      exact ⟨List.mem_map_of_mem hf, by rw [hs]; rfl⟩
    show d.resolvedAt v _ (last + 1) f.type = _
    by_cases he : f.type ∈ d.enumNames
    · have hnone : d.inlinable? f.type = none := inlinable?_eq_none.mpr fun _ => he
      rw [if_pos he, resolvedAt, inlinedAt_of_none hnone, Expr.bind, linked, enum?_isSome, if_pos (by simpa using he)]
    · rw [if_neg he]
      cases hm : d.model? f.type with
      | none =>
        have hnone := inlinable?_of_not_mem (model?_eq_none.mp hm)
        rw [resolvedAt, inlinedAt_of_none hnone, Expr.bind, linked, enum?_isSome, if_neg (by simpa using he)]
      | some dependency =>
        have hsome := inlinable?_eq_some.mpr ⟨enum?_eq_none.mpr he, hm⟩
        rw [resolvedAt, inlinedAt_of_some hsome hmem, Expr.bind_object, bind_linked_schema, model?_name hm,
          dependencies_references, Nat.add_assoc (last + 1), Nat.add_comm 1]

theorem run_resolveModel (m : Model) (last : Nat) : (d.resolveModel m).run last =
    (d.resolve ⟨m.schema .topLevel .canonical (last + 1), m.schema .topLevel .input (last + 1),
      m.references .topLevel⟩).run (last + 1) := rfl

theorem bind_resolvedAt_schema (m : Model) (v : Variant) (last number : Nat) :
    (m.schema .topLevel v number).bind (d.resolvedAt v (m.references .topLevel).names (last + 1)) =
      d.expansion m v last := by
  rw [Model.bind_schema, Model.keptFields_topLevel, expansion]
  congr 1
  apply List.map_congr_left
  intro f hf
  rw [bind_resolvedAt_leaf hf]

/-- The input schema of a model refers to nothing else than its canonical one. -/
theorem occurrences_input_sub_canonical (m : Model) (number : Nat) :
    ∀ n ∈ (m.schema .topLevel .input number).occurrences, n ∈ (m.schema .topLevel .canonical number).occurrences := by
  intro n hn
  rwa [Model.occurrences_schema] at hn ⊢

theorem schema_resolveModel (d : Document) (m : Model) (v : Variant) (last : Nat) :
    ((d.resolveModel m).run last).1.schema v = d.expansion m v last := by
  rw [run_resolveModel, run_resolve (occurrences_input_sub_canonical m (last + 1))]
  cases v
  · exact bind_resolvedAt_schema m .canonical last (last + 1)
  · exact bind_resolvedAt_schema m .input last (last + 1)

/-- Resolving a model from any number yields, in both variants, the tree that is built from the
    document without a substitution. -/
theorem resolveModel_eq_expansion (d : Document) (m : Model) (last : Nat) :
    ((d.resolveModel m).run last).1.canonical = d.expansion m .canonical last ∧
      ((d.resolveModel m).run last).1.input = d.expansion m .input last :=
  ⟨d.schema_resolveModel m .canonical last, d.schema_resolveModel m .input last⟩

end Document

end SchemaForge
