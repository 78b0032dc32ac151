import SchemaForge.Proofs.Generation.Pass
import SchemaForge.Proofs.Variant

/-! The identifiers of a generation pass. An inlined model has the identifier that a model of its own would
    have if it were named after the inlined one and the number. Numbers keep the inlined schemas apart, and
    endings keep the variants apart, so two sources share an identifier only when the name of one imitates
    what the pass adds to the name of the other. -/

namespace SchemaForge

/-! ### The identifiers in a tree -/

mutual

/-- The identifiers of the objects of a tree, outer ones first. -/
def Expr.ids : Expr → List String
  | .object ⟨id, ps, _⟩ => id :: Property.ids ps
  | .array e => e.ids
  | .optional e => e.ids
  | .scalar _ => []
  | .placeholder _ => []
  | .enumRef _ => []

def Property.ids : List Property → List String
  | [] => []
  | ⟨_, e⟩ :: ps => e.ids ++ Property.ids ps

end

def ObjectSchema.ids (o : ObjectSchema) : List String := o.id :: Property.ids o.properties

theorem Expr.ids_object (o : ObjectSchema) : (Expr.object o).ids = o.ids := by
  obtain ⟨id, ps, additional⟩ := o
  rfl

theorem Property.ids_eq_flatMap (ps : List Property) : Property.ids ps = ps.flatMap (·.expr.ids) := by
  induction ps with
  | nil => rfl
  | cons p ps ih =>
    obtain ⟨_, e⟩ := p
    rw [Property.ids, ih, List.flatMap_cons]

theorem Field.ids_propertyOver (f : Field) (v : Variant) (leaf : Expr) :
    (f.propertyOver v leaf).expr.ids = leaf.ids := by
  unfold Field.propertyOver
  cases f.isOptionalIn v <;> cases f.isList <;> rfl

/-! ### Sources -/

/-- Where a schema of a pass comes from: an enum, a model by itself, or a model that is inlined, under a
    number, into the schema of another. -/
inductive SchemaSource where
  | enum (name : String)
  | model (name : String) (v : Variant)
  | inlined (top name : String) (number : Nat) (v : Variant)
  deriving DecidableEq

namespace SchemaSource

def id : SchemaSource → String
  | enum name => name
  | model name v => v.modelId name
  | inlined _ name number v => v.dependencyId name number

/-- The name of the first source is such that its identifier is that of the second. -/
def Imitates : SchemaSource → SchemaSource → Prop
  | enum n, model name v => n = v.modelId name
  | enum n, inlined _ name number v => n = v.dependencyId name number
  | model n .canonical, model name .input => n = name ++ "_input"
  | model n .canonical, inlined _ name number .canonical => n = name ++ "_dep_" ++ toString number
  | model n .canonical, inlined _ name number .input => n = name ++ "_dep_" ++ toString number ++ "_input"
  | model n .input, inlined _ name number .input => n = name ++ "_dep_" ++ toString number
  | _, _ => False

end SchemaSource

namespace Document

/-- The sources of one variant of a model, in the order of its tree. -/
def variantSources (d : Document) (p : Model × Nat) (v : Variant) : List SchemaSource :=
  .model p.1.name v :: p.1.fields.flatMap fun f =>
    if f.type ∈ d.inlinedNames p.1 then
      [.inlined p.1.name f.type (p.2 + 1 + ((d.inlinedNames p.1).idxOf f.type + 1)) v]
    else []

/-- The sources of a pass, in the order of its files. -/
def schemaSources (d : Document) : List SchemaSource :=
  d.placedModels.flatMap (fun p => d.variantSources p .canonical ++ d.variantSources p .input) ++
    d.enums.map fun e => .enum e.name

/-- The identifiers in the files of a pass: those in the two trees of each model, and the enums' own. -/
def emittedIds (d : Document) : List String :=
  d.placedModels.flatMap (fun p => (d.resolvedModel p).canonical.ids ++ (d.resolvedModel p).input.ids) ++ d.enumNames

variable {d : Document} {m : Model}

theorem ids_inlinedObject (v : Variant) (name : String) (number : Nat) :
    (d.inlinedObject v name m number).ids = [v.dependencyId name number] := by
  have hleaf : ∀ type, (d.nestedLeaf type).ids = [] := by
    intro type
    unfold nestedLeaf
    cases Scalar.ofTag? type with
    | some s => rfl
    | none => by_cases h : type ∈ d.enumNames <;> simp only [h, if_true, if_false, Expr.ids]
  rw [ObjectSchema.ids, inlinedObject, Property.ids_eq_flatMap, List.flatMap_map]
  rw [List.flatMap_eq_nil_iff.mpr fun f _ => (Field.ids_propertyOver f v _).trans (hleaf f.type)]

theorem mem_inlinedNames {f : Field} (hf : f ∈ m.fields) :
    f.type ∈ d.inlinedNames m ↔ Scalar.ofTag? f.type = none ∧ f.type ∈ d.modelNames ∧ f.type ∉ d.enumNames := by
  have hmem : f.type ∈ m.fields.map (·.type) := List.mem_map_of_mem hf
  simp only [inlinedNames, Model.referencedNames, List.mem_filter, List.mem_eraseDups, hmem, true_and,
    Option.isNone_iff_eq_none, Bool.and_eq_true, decide_eq_true_eq]

/-- The leaf of a field holds an object when its type is inlined, and no other. -/
theorem ids_expandedLeaf {f : Field} (hf : f ∈ m.fields) (v : Variant) (last : Nat) :
    (d.expandedLeaf m v last f.type).ids = if f.type ∈ d.inlinedNames m then
      [v.dependencyId f.type (last + 1 + ((d.inlinedNames m).idxOf f.type + 1))] else [] := by
  simp only [mem_inlinedNames hf]
  unfold expandedLeaf
  cases hs : Scalar.ofTag? f.type with
  | some s => simp [Expr.ids]
  | none =>
    by_cases he : f.type ∈ d.enumNames
    · simp [he, Expr.ids]
    · cases hm : d.model? f.type with
      | none => simp [he, Expr.ids, model?_eq_none.mp hm]
      | some dependency =>
        have hmodel : f.type ∈ d.modelNames := by
          by_contra hnot
          rw [model?_eq_none.mpr hnot] at hm
          cases hm
        simp [he, hmodel, Expr.ids_object, ids_inlinedObject]

theorem ids_resolvedModel (p : Model × Nat) (v : Variant) :
    ((d.resolvedModel p).schema v).ids = (d.variantSources p v).map (·.id) := by
  rw [resolvedModel, schema_resolveModel, ObjectSchema.ids, expansion, Property.ids_eq_flatMap, List.flatMap_map,
    variantSources, List.map_cons, List.map_flatMap]
  congr 1
  apply List.flatMap_congr
  intro f hf
  rw [Field.ids_propertyOver, ids_expandedLeaf hf]
  by_cases h : f.type ∈ d.inlinedNames p.1
  · rw [if_pos h, if_pos h]
    rfl
  · rw [if_neg h, if_neg h]
    rfl

theorem emittedIds_eq (d : Document) : d.emittedIds = d.schemaSources.map (·.id) := by
  have henums : d.enums.map (SchemaSource.id ∘ fun e => .enum e.name) = d.enumNames := rfl
  have hmodel : ∀ p : Model × Nat, (d.resolvedModel p).canonical.ids ++ (d.resolvedModel p).input.ids =
      (d.variantSources p .canonical ++ d.variantSources p .input).map (·.id) := by
    intro p
    rw [List.map_append, ← ids_resolvedModel, ← ids_resolvedModel]
    rfl
  rw [emittedIds, schemaSources, List.map_append, List.map_flatMap, List.map_map, henums]
  simp only [hmodel]

/-- An inlined schema has one of the numbers that its model takes. -/
theorem number_of_mem_schemaSources {top name : String} {number : Nat} {v : Variant}
    (h : .inlined top name number v ∈ d.schemaSources) :
    ∃ p ∈ d.placedModels, p.1.name = top ∧ ∃ i < d.numbersTaken p.1, number = p.2 + 1 + i := by
  have hvariant : ∀ {p : Model × Nat} {w : Variant}, .inlined top name number v ∈ d.variantSources p w →
      p.1.name = top ∧ ∃ i < d.numbersTaken p.1, number = p.2 + 1 + i := by
    intro p w hmem
    rcases List.mem_cons.mp hmem with hmem | hmem
    · cases hmem
    · obtain ⟨f, -, hmem⟩ := List.mem_flatMap.mp hmem
      by_cases hf : f.type ∈ d.inlinedNames p.1
      · rw [if_pos hf, List.mem_singleton] at hmem
        cases hmem
        have hidx := List.idxOf_lt_length_of_mem hf
        refine ⟨rfl, (d.inlinedNames p.1).idxOf f.type + 1, ?_, rfl⟩
        rw [numbersTaken]
        omega
      · rw [if_neg hf] at hmem
        cases hmem
  rcases List.mem_append.mp h with h | h
  · obtain ⟨p, hp, h⟩ := List.mem_flatMap.mp h
    rcases List.mem_append.mp h with h | h
    · exact ⟨p, hp, hvariant h⟩
    · exact ⟨p, hp, hvariant h⟩
  · obtain ⟨e, -, h⟩ := List.mem_map.mp h
    cases h

theorem top_eq_of_number {a b top top' : String} {number : Nat} {v w : Variant}
    (h : .inlined top a number v ∈ d.schemaSources) (h' : .inlined top' b number w ∈ d.schemaSources) :
    top = top' := by
  obtain ⟨p, hp, rfl, i, hi, rfl⟩ := number_of_mem_schemaSources h
  obtain ⟨q, hq, rfl, j, hj, hnumber⟩ := number_of_mem_schemaSources h'
  have hpq := placed_eq_of_number hp hq hi hj (by omega)
  rw [hpq]

end Document

/-! ### Identifiers that are shared -/

namespace SchemaSource
variable {a b : SchemaSource}

theorem Imitates.id_eq (h : a.Imitates b) : a.id = b.id := by
  match a, b, h with
  | enum _, model _ _, h => exact h
  | enum _, inlined _ _ _ _, h => exact h
  | model _ .canonical, model _ .input, h => exact Variant.canonical_modelId_eq_input.mpr h
  | model _ .canonical, inlined _ _ _ .canonical, h => exact Variant.modelId_inj.mpr h
  | model _ .canonical, inlined _ _ _ .input, h => exact Variant.canonical_modelId_eq_input.mpr h
  | model _ .input, inlined _ _ _ .input, h => exact Variant.modelId_inj.mpr h

theorem eq_or_imitates_of_model {n m : String} {v w : Variant} (h : (model n v).id = (model m w).id) :
    model n v = model m w ∨ (model n v).Imitates (model m w) ∨ (model m w).Imitates (model n v) := by
  cases v <;> cases w
  · exact Or.inl (congrArg (model · _) (Variant.modelId_inj.mp h))
  · exact Or.inr (Or.inl (Variant.canonical_modelId_eq_input.mp h))
  · exact Or.inr (Or.inr (Variant.canonical_modelId_eq_input.mp h.symm))
  · exact Or.inl (congrArg (model · _) (Variant.modelId_inj.mp h))

theorem imitates_of_inlined {n top name : String} {number : Nat} {v w : Variant}
    (h : (model n v).id = (inlined top name number w).id) : (model n v).Imitates (inlined top name number w) := by
  cases v <;> cases w
  · exact Variant.modelId_inj.mp h
  · exact Variant.canonical_modelId_eq_input.mp h
  · exact absurd (Variant.canonical_modelId_eq_input.mp h.symm) (Variant.numbered_ne_input number)
  · exact Variant.modelId_inj.mp h

end SchemaSource

/-- The identifiers that a pass emits are those of its sources, and two sources have one identifier exactly
    when they are the same or the name of one imitates the other's identifier. -/
theorem Document.id_eq_iff (d : Document) (o : Options) :
    d.generate o = d.placedModels.map (fun p => Generation.modelEntity o p.1 (d.resolvedModel p)) ++
      d.enums.map (Generation.enumEntity o) ∧
    d.emittedIds = d.schemaSources.map (·.id) ∧
    ∀ a ∈ d.schemaSources, ∀ b ∈ d.schemaSources, a.id = b.id ↔ a = b ∨ a.Imitates b ∨ b.Imitates a := by
  refine ⟨d.generate_eq o, d.emittedIds_eq, fun a ha b hb => ⟨fun h => ?_, ?_⟩⟩
  · match a, b, h with
    | .enum _, .enum _, h => exact Or.inl (congrArg _ h)
    | .enum _, .model _ _, h => exact Or.inr (Or.inl h)
    | .enum _, .inlined _ _ _ _, h => exact Or.inr (Or.inl h)
    | .model _ _, .enum _, h => exact Or.inr (Or.inr h.symm)
    | .model _ _, .model _ _, h => exact SchemaSource.eq_or_imitates_of_model h
    | .model _ _, .inlined _ _ _ _, h => exact Or.inr (Or.inl (SchemaSource.imitates_of_inlined h))
    | .inlined _ _ _ _, .enum _, h => exact Or.inr (Or.inr h.symm)
    | .inlined _ _ _ _, .model _ _, h => exact Or.inr (Or.inr (SchemaSource.imitates_of_inlined h.symm))
    | .inlined top _ _ _, .inlined top' _ _ _, h =>
      obtain ⟨rfl, rfl, rfl⟩ := Variant.dependencyId_inj h
      obtain rfl := Document.top_eq_of_number ha hb
      exact Or.inl rfl
  · rintro (rfl | h | h)
    · rfl
    · exact h.id_eq
    · exact h.id_eq.symm

/-- A model may be named like another one with the mark of input. -/
theorem Document.id_shared_userInput :
    let d : Document := ⟨[⟨"User", [.new "id" "Int"]⟩, ⟨"User_input", [.new "id" "Int"]⟩], []⟩
    (d.modelNames ++ d.enumNames).Nodup ∧ ∃ a ∈ d.schemaSources, ∃ b ∈ d.schemaSources,
      a = .model "User" .input ∧ b = .model "User_input" .canonical ∧ a ≠ b ∧
        a.id = "User_input_model" ∧ b.id = "User_input_model" := by
  intro d
  exact ⟨by decide, .model "User" .input, by decide, .model "User_input" .canonical, by decide, rfl, rfl, by decide,
    by decide, by decide⟩

end SchemaForge
