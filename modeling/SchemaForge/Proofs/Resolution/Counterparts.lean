import SchemaForge.Proofs.Resolution.Expansion
import SchemaForge.Proofs.Variant

/-! The input schema of a model beside the canonical one. The two trees have one shape. An object has the
    identifier of its name and number in either variant, and the property of an identifier that the database
    numbers is optional on input and never in stored data. Everything else agrees, so the canonical tree and
    the document determine the input tree. -/

namespace SchemaForge

/-- An identifier that the database numbers. -/
def Field.isNumbered (f : Field) : Bool := f.isId && f.isAutoincrement

mutual

/-- The canonical and the input expression of one value with a leaf of this type. An object stands for the
    document's model of that type, under one number in both. -/
inductive Expr.Counterparts (d : Document) : String → Expr → Expr → Prop
  | scalar {type : String} (s : Scalar) : Expr.Counterparts d type (.scalar s) (.scalar s)
  | placeholder {type : String} (name : String) :
    Expr.Counterparts d type (.placeholder name) (.placeholder name)
  | enumRef {type : String} (name : String) : Expr.Counterparts d type (.enumRef name) (.enumRef name)
  | array {type : String} {e e' : Expr} :
    Expr.Counterparts d type e e' → Expr.Counterparts d type (.array e) (.array e')
  | optional {type : String} {e e' : Expr} :
    Expr.Counterparts d type e e' → Expr.Counterparts d type (.optional e) (.optional e')
  | object {type : String} {m : Model} {number : Nat} {ps ps' : List Property} {additional : Bool} :
    d.model? type = some m → Property.Counterparts d (m.keptFields (.inlined d.modelNames)) ps ps' →
    Expr.Counterparts d type (.object ⟨Variant.canonical.dependencyId type number, ps, additional⟩)
      (.object ⟨Variant.input.dependencyId type number, ps', additional⟩)

/-- The canonical and the input properties of fields, in their order. A numbered field has one more option on
    input, and none in stored data. -/
inductive Property.Counterparts (d : Document) : List Field → List Property → List Property → Prop
  | nil : Property.Counterparts d [] [] []
  | same {f : Field} {fs : List Field} {e e' : Expr} {ps ps' : List Property} : f.isNumbered = false →
    Expr.Counterparts d f.type e e' → Property.Counterparts d fs ps ps' →
    Property.Counterparts d (f :: fs) (⟨f.name, e⟩ :: ps) (⟨f.name, e'⟩ :: ps')
  | numbered {f : Field} {fs : List Field} {e e' : Expr} {ps ps' : List Property} : f.isNumbered = true →
    e.isOptional = false → Expr.Counterparts d f.type e e' → Property.Counterparts d fs ps ps' →
    Property.Counterparts d (f :: fs) (⟨f.name, e⟩ :: ps) (⟨f.name, .optional e'⟩ :: ps')

end

/-! ### The input tree is determined -/

theorem Expr.Counterparts.of_object {d : Document} {type : String} {o : ObjectSchema} {e : Expr}
    (h : Expr.Counterparts d type (.object o) e) : ∃ m number ps', d.model? type = some m ∧
      o.id = Variant.canonical.dependencyId type number ∧
      Property.Counterparts d (m.keptFields (.inlined d.modelNames)) o.properties ps' ∧
      e = .object ⟨Variant.input.dependencyId type number, ps', o.additionalProperties⟩ := by
  cases h with
  | object hm hps => exact ⟨_, _, _, hm, rfl, hps, rfl⟩

mutual

theorem Expr.Counterparts.unique {d : Document} {type : String} {e a b : Expr} :
    Expr.Counterparts d type e a → Expr.Counterparts d type e b → a = b
  | .scalar _, h => by
    cases h
    rfl
  | .placeholder _, h => by
    cases h
    rfl
  | .enumRef _, h => by
    cases h
    rfl
  | .array he, h => by
    cases h with
    | array he' => rw [he.unique he']
  | .optional he, h => by
    cases h with
    | optional he' => rw [he.unique he']
  | .object hm hps, h => by
    obtain ⟨m', number', ps', hm', hid, hps', rfl⟩ := h.of_object
    obtain ⟨-, -, rfl⟩ := Variant.dependencyId_inj hid
    cases hm.symm.trans hm'
    rw [hps.unique hps']

theorem Property.Counterparts.unique {d : Document} {fs : List Field} {ps qs qs' : List Property} :
    Property.Counterparts d fs ps qs → Property.Counterparts d fs ps qs' → qs = qs'
  | .nil, h => by
    cases h
    rfl
  | .same hf he hps, h => by
    cases h with
    | same _ he' hps' => rw [he.unique he', hps.unique hps']
    | numbered hf' => rw [hf] at hf'; cases hf'
  | .numbered hf _ he hps, h => by
    cases h with
    | same hf' => rw [hf] at hf'; cases hf'
    | numbered _ _ he' hps' => rw [he.unique he', hps.unique hps']

end

/-! ### The trees of a model -/

namespace Field

/-- An identifier is never optional in stored data, and on input only if the database numbers it. -/
theorem isOptionalIn_of_numbered {f : Field} (h : f.isNumbered = true) :
    f.isOptionalIn .canonical = false ∧ f.isOptionalIn .input = true := by
  obtain ⟨hid, hauto⟩ := Bool.and_eq_true_iff.mp h
  simp [isOptionalIn, isOptionalOnInput, isOptional, hid, hauto]

theorem isOptionalIn_of_not_numbered {f : Field} (h : f.isNumbered = false) :
    f.isOptionalIn .input = f.isOptionalIn .canonical := by
  have hnot : (f.isId && f.isAutoincrement) = false := h
  rw [isOptionalIn, isOptionalIn, isOptionalOnInput, hnot, Bool.or_false]

end Field

/-- Fields whose leaves are counterparts have properties that are. -/
theorem Property.Counterparts.of_leaves {d : Document} (leaf : Variant → String → Expr) :
    ∀ fs : List Field, (∀ f ∈ fs, Expr.Counterparts d f.type (leaf .canonical f.type) (leaf .input f.type)) →
      (∀ f ∈ fs, (leaf .canonical f.type).isOptional = false) →
      Property.Counterparts d fs (fs.map fun f => f.propertyOver .canonical (leaf .canonical f.type))
        (fs.map fun f => f.propertyOver .input (leaf .input f.type))
  | [], _, _ => .nil
  | f :: fs, hleaf, hopt => by
    have hps := of_leaves leaf fs (fun g hg => hleaf g (List.mem_cons_of_mem _ hg)) fun g hg =>
      hopt g (List.mem_cons_of_mem _ hg)
    have he := hleaf f List.mem_cons_self
    have hbase : Expr.Counterparts d f.type
        (if f.isList then .array (leaf .canonical f.type) else leaf .canonical f.type)
        (if f.isList then .array (leaf .input f.type) else leaf .input f.type) := by
      cases f.isList with
      | true => exact .array he
      | false => exact he
    cases hf : f.isNumbered with
    | true =>
      obtain ⟨hcanonical, hinput⟩ := Field.isOptionalIn_of_numbered hf
      have hnot : (if f.isList then .array (leaf .canonical f.type) else leaf .canonical f.type : Expr).isOptional =
          false := by
        cases f.isList with
        | true => rfl
        | false => exact hopt f List.mem_cons_self
      simp only [List.map_cons, Field.propertyOver, hcanonical, hinput, if_true]
      exact .numbered hf hnot hbase hps
    | false =>
      -- Both variants wrap the field alike, or not at all.
      simp only [List.map_cons, Field.propertyOver, Field.isOptionalIn_of_not_numbered hf]
      cases f.isOptionalIn .canonical with
      | true => exact .same hf (.optional hbase) hps
      | false => exact .same hf hbase hps

namespace Document
variable {d : Document} {m : Model}

theorem isOptional_nestedLeaf (type : String) : (d.nestedLeaf type).isOptional = false := by
  rcases d.nestedLeaf_cases type with ⟨s, h⟩ | ⟨-, h⟩ | h <;> rw [h] <;> rfl

theorem counterparts_nestedLeaf (type : String) : Expr.Counterparts d type (d.nestedLeaf type) (d.nestedLeaf type) := by
  rcases d.nestedLeaf_cases type with ⟨s, h⟩ | ⟨-, h⟩ | h
  · rw [h]
    exact .scalar s
  · rw [h]
    exact .enumRef type
  · rw [h]
    exact .placeholder type

theorem counterparts_inlinedObject {type : String} (hm : d.model? type = some m) (number : Nat) :
    Expr.Counterparts d type (.object (d.inlinedObject .canonical type m number))
      (.object (d.inlinedObject .input type m number)) := by
  have hkept : m.keptFields (.inlined d.modelNames) =
      m.fields.filter fun f => (Scalar.ofTag? f.type).isSome || decide (f.type ∉ d.modelNames) :=
    List.filter_congr fun f _ => Placement.keeps_inlined d.modelNames f
  refine .object hm ?_
  rw [hkept]
  exact .of_leaves (fun _ => d.nestedLeaf) _ (fun f _ => counterparts_nestedLeaf f.type) fun f _ =>
    isOptional_nestedLeaf f.type

theorem isOptional_expandedLeaf (v : Variant) (last : Nat) (type : String) :
    (d.expandedLeaf m v last type).isOptional = false := by
  rcases d.expandedLeaf_cases m type with ⟨s, h⟩ | ⟨-, h⟩ | h | ⟨dependency, -, h⟩ <;> rw [h] <;> rfl

/-- The leaves of a type in the two variants differ at most in an inlined object. -/
theorem counterparts_expandedLeaf (last : Nat) (type : String) :
    Expr.Counterparts d type (d.expandedLeaf m .canonical last type) (d.expandedLeaf m .input last type) := by
  rcases d.expandedLeaf_cases m type with ⟨s, h⟩ | ⟨-, h⟩ | h | ⟨dependency, hm, h⟩
  · rw [h, h]
    exact .scalar s
  · rw [h, h]
    exact .enumRef type
  · rw [h, h]
    exact .placeholder type
  · rw [h, h]
    exact counterparts_inlinedObject hm _

/-- Resolving a model yields a canonical and an input schema with its identifiers in the two variants, of which
    the input properties are the one list that are counterparts of the canonical ones. -/
theorem resolveModel_counterparts (d : Document) (m : Model) (last : Nat) :
    let r := ((d.resolveModel m).run last).1
    r.canonical.id = Variant.canonical.modelId m.name ∧ r.input.id = Variant.input.modelId m.name ∧
      r.input.additionalProperties = r.canonical.additionalProperties ∧
      ∀ ps, Property.Counterparts d m.fields r.canonical.properties ps ↔ ps = r.input.properties := by
  intro r
  have hcanonical : r.canonical = d.expansion m .canonical last := d.schema_resolveModel m .canonical last
  have hinput : r.input = d.expansion m .input last := d.schema_resolveModel m .input last
  have hps : Property.Counterparts d m.fields r.canonical.properties r.input.properties := by
    rw [hcanonical, hinput]
    exact .of_leaves (fun v => d.expandedLeaf m v last) m.fields
      (fun f _ => counterparts_expandedLeaf last f.type) fun f _ => isOptional_expandedLeaf .canonical last f.type
  refine ⟨by rw [hcanonical]; rfl, by rw [hinput]; rfl, by rw [hcanonical, hinput]; rfl, fun ps => ⟨?_, ?_⟩⟩
  · exact fun h => h.unique hps
  · rintro rfl
    exact hps

end Document

end SchemaForge
