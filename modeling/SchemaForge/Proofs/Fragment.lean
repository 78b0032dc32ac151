import Mathlib.Data.List.Forall2
import SchemaForge.Proofs.Resolution.Expansion

/-! What a model's fragment holds. The two schemas and the list of references are read off one list of kept fields,
    so they agree: the properties are those fields in their order, and the references are the placeholders of
    either schema, each at its first place. A scalar is kept also when its tag is among the suppressed names. -/

namespace SchemaForge

/-- The leaf of a type: the scalar of that tag, or a placeholder for a name that is no tag. -/
inductive Expr.LeafOf (type : String) : Expr → Prop
  | scalar {s : Scalar} : s.tag = type → Expr.LeafOf type (.scalar s)
  | placeholder : Scalar.ofTag? type = none → Expr.LeafOf type (.placeholder type)

/-- A property of the field's name, of one leaf for its type: in an array exactly if the field is a list, and in at
    most one option, around all of it. -/
structure Property.Of (f : Field) (p : Property) : Prop where
  name : p.name = f.name
  expr : ∃ leaf, Expr.LeafOf f.type leaf ∧
    (p.expr = (if f.isList then .array leaf else leaf) ∨ p.expr = .optional (if f.isList then .array leaf else leaf))

/-- The names that a place suppresses, none at the top level. -/
def Placement.suppressed : Placement → List String
  | topLevel => []
  | inlined suppressed => suppressed

/-- The fields of a scalar type, and those of a type that is not suppressed. -/
def Model.allowedFields (m : Model) (place : Placement) : List Field :=
  m.fields.filter fun f => (Scalar.ofTag? f.type).isSome || decide (f.type ∉ place.suppressed)

def Fragment.schema (f : Fragment) : Variant → ObjectSchema
  | .canonical => f.canonical
  | .input => f.input

/-- The fragment has the allowed fields of the model and nothing else, and its references are those of its schemas. -/
structure Fragment.Of (m : Model) (place : Placement) (f : Fragment) : Prop where
  properties : ∀ v, List.Forall₂ Property.Of (m.allowedFields place) (f.schema v).properties
  placeholders : ∀ v, (f.schema v).placeholders = f.references
  nodup : f.references.names.Nodup
  /-- The types of the allowed fields that are no scalars, in first-seen order. -/
  names : f.references.names =
    (((m.allowedFields place).map (·.type)).filter fun t => (Scalar.ofTag? t).isNone).eraseDups
  not_references : ∀ v, ∀ n ∈ place.suppressed, (f.schema v).references n = false

namespace Field

theorem leafOf_leaf (f : Field) : Expr.LeafOf f.type f.leaf := by
  unfold leaf
  cases h : Scalar.ofTag? f.type with
  | some s => exact .scalar (Scalar.tag_of_ofTag? h)
  | none => exact .placeholder h

theorem of_property (f : Field) (v : Variant) : Property.Of f (f.property v) := by
  refine ⟨rfl, f.leaf, f.leafOf_leaf, ?_⟩
  unfold property base
  cases f.isOptionalIn v
  · exact Or.inl rfl
  · exact Or.inr rfl

end Field

theorem Placement.keeps_eq (place : Placement) (f : Field) :
    place.keeps f = ((Scalar.ofTag? f.type).isSome || decide (f.type ∉ place.suppressed)) := by
  cases place with
  | topLevel => simp [keeps, suppressed]
  | inlined names => exact keeps_inlined names f

namespace Model
variable {m : Model} {place : Placement}

theorem keptFields_eq (m : Model) (place : Placement) : m.keptFields place = m.allowedFields place :=
  List.filter_congr fun f _ => place.keeps_eq f

theorem properties_schema (m : Model) (place : Placement) (v : Variant) (number : Nat) :
    List.Forall₂ Property.Of (m.allowedFields place) (m.schema place v number).properties := by
  rw [schema, keptFields_eq, List.forall₂_map_right_iff]
  exact List.forall₂_same.mpr fun f _ => f.of_property v

/-- Either schema has the references as its placeholders, in the same order. -/
theorem placeholders_schema (m : Model) (place : Placement) (v : Variant) (number : Nat) :
    (m.schema place v number).placeholders = m.references place := by
  have hnames : (m.schema place v number).placeholders.names = (m.references place).names := by
    rw [ObjectSchema.names_placeholders, occurrences_schema, names_references]
  exact congrArg References.mk hnames

theorem references_schema_of_suppressed {n : String} (hn : n ∈ place.suppressed) (v : Variant) (number : Nat) :
    (m.schema place v number).references n = false := by
  cases place with
  | topLevel => exact absurd hn List.not_mem_nil
  | inlined names =>
    rw [← Bool.not_eq_true, ObjectSchema.references_iff]
    exact fun hoccurs => not_mem_of_inlined hoccurs hn

theorem schema_fragment (m : Model) (place : Placement) (v : Variant) (last : Nat) :
    ((m.fragment place).run last).1.schema v = m.schema place v (last + 1) := by
  cases v <;> rfl

/-- Turning a model into a fragment takes one number, from any number and in any place, and keeps exactly the
    allowed fields, in both schemas and in the references. -/
theorem fragment_of_allowedFields (m : Model) (place : Placement) (last : Nat) :
    let r := (m.fragment place).run last
    r.2 = last + 1 ∧ r.1.Of m place := by
  intro r
  have hnames : (m.references place).names = (((m.allowedFields place).map (·.type)).filter
      fun t => (Scalar.ofTag? t).isNone).eraseDups := by
    rw [names_references, keptFields_eq, flatMap_references]
  refine ⟨rfl, fun v => ?_, fun v => ?_, ?_, hnames, fun v n hn => ?_⟩
  · rw [schema_fragment]
    exact m.properties_schema place v (last + 1)
  · rw [schema_fragment]
    exact m.placeholders_schema place v (last + 1)
  · show (m.references place).names.Nodup
    rw [hnames]
    exact References.nodup_eraseDups _
  · rw [schema_fragment]
    exact references_schema_of_suppressed hn v (last + 1)

/-- A scalar stays though its tag is suppressed, and a reference is dropped. -/
example :
    let m : Model := ⟨"Post", [.new "id" "Int", (Field.new "tags" "Tag").withList true, .new "author" "User"]⟩
    let f := ((m.fragment (.inlined ["Int", "User"])).run 4).1
    f.input.properties.map (·.name) = ["id", "tags"] ∧ f.references.names = ["Tag"] := by
  decide

end Model

end SchemaForge
