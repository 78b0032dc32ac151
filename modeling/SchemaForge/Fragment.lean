import SchemaForge.Document.Basic
import SchemaForge.Schema.Basic

/-!
The two schemas of a model before its references are resolved: the canonical one, for stored data, and the one for
input, which differ in optional wrappers only. A model stands at the top level or is inlined into another model's
schema; each time one is turned into a fragment the numbering of the pass advances, and an inlined model carries the
number in its identifiers.
-/

namespace SchemaForge

/-- Computations that hand out numbers; the state is the number that was handed out last. -/
abbrev Numbering := StateM Nat

/-- The next number. -/
def Numbering.next : Numbering Nat := fun last => (last + 1, last + 1)

inductive Variant where
  | canonical | input
  deriving DecidableEq, Repr

namespace Variant

/-- What the variant adds to the name of an exported constant. -/
def exportSuffix : Variant → String
  | canonical => ""
  | input => "Input"

/-- What an identifier of the variant ends in. -/
def idSuffix : Variant → String
  | canonical => "model"
  | input => "input_model"

/-- The identifier of a model's own schema. -/
def modelId (v : Variant) (model : String) : String := model ++ "_" ++ v.idSuffix

/-- The identifier of a model that is inlined under a number. -/
def dependencyId (v : Variant) (model : String) (number : Nat) : String :=
  model ++ "_dep_" ++ toString number ++ "_" ++ v.idSuffix

end Variant

namespace Field

/-- Stored data may lack a field that is not required or has a default, but never an identifier. -/
def isOptional (f : Field) : Bool := (!f.isRequired || f.hasDefaultValue) && !f.isId

/-- Input may also lack an identifier that the database numbers. -/
def isOptionalOnInput (f : Field) : Bool := f.isOptional || (f.isId && f.isAutoincrement)

/-- The names that a field refers to: its type, unless that is a scalar. -/
def references (f : Field) : List String :=
  match Scalar.ofTag? f.type with
  | some _ => []
  | none => [f.type]

/-- The expression of one value of the field. -/
def leaf (f : Field) : Expr :=
  match Scalar.ofTag? f.type with
  | some s => .scalar s
  | none => .placeholder f.type

/-- The expression of the field's values, a list or not. -/
def base (f : Field) : Expr := if f.isList then .array f.leaf else f.leaf

def isOptionalIn (f : Field) : Variant → Bool
  | .canonical => f.isOptional
  | .input => f.isOptionalOnInput

/-- The property of a field in one of the schemas. -/
def property (f : Field) (v : Variant) : Property :=
  ⟨f.name, if f.isOptionalIn v then .optional f.base else f.base⟩

end Field

/-- The schemas of a model and the names that they refer to. -/
structure Fragment where
  canonical : ObjectSchema
  input : ObjectSchema
  references : References

/-- Where a model's schema stands: alone, or inside another model's, without the fields that refer to the
    suppressed names. -/
inductive Placement where
  | topLevel
  | inlined (suppressed : List String)

namespace Placement

/-- Whether a model in this place keeps a field. -/
def keeps : Placement → Field → Bool
  | topLevel, _ => true
  | inlined suppressed, f => !suppressed.any f.references.contains

/-- The identifier of a model in this place. -/
def id : Placement → Variant → String → Nat → String
  | topLevel, v, model, _ => v.modelId model
  | inlined _, v, model, number => v.dependencyId model number

end Placement

namespace Model

/-- The fields that a model keeps in a place. -/
def keptFields (m : Model) (place : Placement) : List Field := m.fields.filter place.keeps

/-- The schema of one variant of the model under a number. -/
def schema (m : Model) (place : Placement) (v : Variant) (number : Nat) : ObjectSchema :=
  ⟨place.id v m.name number, (m.keptFields place).map fun f => f.property v, false⟩

/-- The names that the kept fields refer to, in first-seen order. -/
def references (m : Model) (place : Placement) : References :=
  (m.keptFields place).foldl (fun r f => r.insertAll f.references) .empty

/-- The fragment of the model, under the next number. -/
def fragment (m : Model) (place : Placement) : Numbering Fragment := do
  let number ← Numbering.next
  return ⟨m.schema place .canonical number, m.schema place .input number, m.references place⟩

end Model

end SchemaForge
