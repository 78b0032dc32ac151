import SchemaForge.Decode.Json

/-!
Scalar types. A field's type is a tag: nine tags name a scalar, and any other names a model or an enum. Each scalar
has a built-in schema expression, which a `TypeMap` may override.
-/

namespace SchemaForge

inductive Scalar where
  | int | float | decimal | bigInt | string | dateTime | date | boolean | json
  deriving DecidableEq, Repr

namespace Scalar

/-- Every scalar, in order. -/
def all : List Scalar := [int, float, decimal, bigInt, string, dateTime, date, boolean, json]

/-- The tag that names the scalar in a document. -/
def tag : Scalar → String
  | int => "Int"
  | float => "Float"
  | decimal => "Decimal"
  | bigInt => "BigInt"
  | string => "String"
  | dateTime => "DateTime"
  | date => "Date"
  | boolean => "Boolean"
  | json => "Json"

/-- The scalar that a tag names, if it names one. -/
def ofTag? (tag : String) : Option Scalar := all.find? fun s => s.tag = tag

/-- The position of the scalar in `all`. -/
def index (s : Scalar) : Nat := all.idxOf s

/-- The schema expression of the scalar. -/
def builtin : Scalar → String
  | int | float | decimal => "Type.Number()"
  | bigInt => "Type.Integer()"
  | string | dateTime | date => "Type.String()"
  | boolean => "Type.Boolean()"
  | json => "Type.Object(\x7b\x7d, \x7b additionalProperties: true \x7d)"

def table : List (String × Scalar) := all.map fun s => (s.tag, s)

def ofJson (v : Json) : Except DecodeError Scalar := Decode.choice table v

def toJson (s : Scalar) : Json := .string s.tag

theorem ofTag?_tag (s : Scalar) : ofTag? s.tag = some s := by cases s <;> rfl

theorem tag_injective {s t : Scalar} (h : s.tag = t.tag) : s = t :=
  Option.some.inj (ofTag?_tag s ▸ ofTag?_tag t ▸ congrArg ofTag? h)

theorem tag_of_ofTag? {tag : String} {s : Scalar} (h : ofTag? tag = some s) : s.tag = tag := by
  simpa using List.find?_some h

end Scalar

/-- Schema expressions that replace the built-in ones, by scalar tag. Entries under other tags have no effect. -/
structure TypeMap where
  overrides : List (String × String) := []

namespace TypeMap

/-- Overrides the expression of a tag, in place of an earlier override. -/
def insert (m : TypeMap) (tag expression : String) : TypeMap :=
  ⟨Assoc.insert tag expression m.overrides⟩

/-- The map with all these overrides; of two for one tag the later counts. -/
def ofList (overrides : List (String × String)) : TypeMap :=
  overrides.foldl (fun m o => m.insert o.1 o.2) {}

/-- The expression of a scalar. -/
def expression (m : TypeMap) (s : Scalar) : String :=
  match m.overrides.lookup s.tag with
  | some e => e
  | none => s.builtin

/-- What holds of the overrides and of the built-in expressions holds of every expression of the map. -/
theorem expression_of_forall {m : TypeMap} {P : String → Prop} (h : ∀ o ∈ m.overrides, P o.2)
    (hbuiltin : ∀ s : Scalar, P s.builtin) (s : Scalar) : P (m.expression s) := by
  unfold expression
  cases hlookup : m.overrides.lookup s.tag with
  | none => exact hbuiltin s
  | some e =>
    obtain ⟨before, after, hsplit, -⟩ := List.lookup_eq_some_iff.mp hlookup
    exact h (s.tag, e) (hsplit ▸ List.mem_append_right before List.mem_cons_self)

/-- The expression of a tag, `none` if it names no scalar. -/
def expressionOfTag? (m : TypeMap) (tag : String) : Option String :=
  (Scalar.ofTag? tag).map m.expression

end TypeMap

end SchemaForge
