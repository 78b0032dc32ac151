import SchemaForge.Schema.Basic

/-!
The JSON form of schema trees. A node is an object with its kind under `type` and its content under `value`, or an
array of the two. In an array the kind has to be a plain name.
-/

namespace SchemaForge

/-- The kinds of nodes. -/
inductive Expr.Kind where
  | scalar | placeholder | enumRef | array | optional | object
  deriving DecidableEq

namespace Expr.Kind

def table : List (String × Expr.Kind) :=
  [("Scalar", scalar), ("Placeholder", placeholder), ("EnumRef", enumRef), ("Array", array), ("Optional", optional),
    ("Object", object)]

def ofJson (v : Json) : Except DecodeError Expr.Kind := Decode.choice table v

/-- The kind under `type` among the members of a node. -/
def ofMembers (members : List (String × Json)) : Except DecodeError Expr.Kind :=
  match members.lookup "type" with
  | some v => ofJson v
  | none => .error (.missingField "type")

/-- A node of a kind: `v` is its content, and the other arguments are what it decodes to as an expression and as
    an object schema. -/
def node (kind : Expr.Kind) (v : Json) (asExpr : Unit → Except DecodeError Expr)
    (asObject : Unit → Except DecodeError ObjectSchema) : Except DecodeError Expr :=
  match kind with
  | scalar => .scalar <$> Scalar.ofJson v
  | placeholder => .placeholder <$> Decode.string v
  | enumRef => .enumRef <$> Decode.string v
  | array => .array <$> asExpr ()
  | optional => .optional <$> asExpr ()
  | object => .object <$> asObject ()

end Expr.Kind

structure Property.Draft where
  name : Option String := none
  expr : Option Expr := none

def Property.Draft.finish (d : Property.Draft) : Except DecodeError Property := do
  let name ← Decode.required "name" d.name
  let expr ← Decode.required "expr" d.expr
  return ⟨name, expr⟩

structure ObjectSchema.Draft where
  id : Option String := none
  properties : Option (List Property) := none
  additionalProperties : Bool := false

def ObjectSchema.Draft.finish (d : ObjectSchema.Draft) : Except DecodeError ObjectSchema := do
  let id ← Decode.required "id" d.id
  let properties ← Decode.required "fields" d.properties
  return ⟨id, properties, d.additionalProperties⟩

def Property.form : Decode.RecordForm := ⟨"FieldNode", ["name", "expr"], 2⟩

def ObjectSchema.form : Decode.RecordForm := ⟨"ObjectSchema", ["id", "fields", "additional_properties"], 2⟩

mutual

def Expr.ofJson : Json → Except DecodeError Expr
  | .object members => do
    let kind ← Expr.Kind.ofMembers members
    Expr.ofMembers kind members
  | .array [] => .error (.shortTagged 0 "Expr")
  | .array (tag :: rest) => do
    let kind ← Decode.choiceName Expr.Kind.table tag
    Expr.ofItems kind rest
  | v => .error (.wrongType v.found (.tagged "Expr"))

/-- A node of a kind, its content under `value`. -/
def Expr.ofMembers (kind : Expr.Kind) : List (String × Json) → Except DecodeError Expr
  | [] => .error (.missingField "value")
  | (key, v) :: members =>
    if key = "value" then kind.node v (fun _ => Expr.ofJson v) (fun _ => ObjectSchema.ofJson v)
    else Expr.ofMembers kind members

/-- A node of a kind, its content in the rest of an array. -/
def Expr.ofItems (kind : Expr.Kind) : List Json → Except DecodeError Expr
  | [] => .error (.shortTagged 1 "Expr")
  | v :: rest => do
    let e ← kind.node v (fun _ => Expr.ofJson v) (fun _ => ObjectSchema.ofJson v)
    if rest.isEmpty then return e else .error (.tooLong (2 + rest.length))

def ObjectSchema.ofJson : Json → Except DecodeError ObjectSchema
  | .object members => ObjectSchema.ofMembers {} members
  | .array items => ObjectSchema.ofItems items.length items
  | v => .error (.wrongType v.found (.record "ObjectSchema"))

def ObjectSchema.ofMembers (d : ObjectSchema.Draft) : List (String × Json) → Except DecodeError ObjectSchema
  | [] => d.finish
  | (key, v) :: members =>
    match key with
    | "id" => do ObjectSchema.ofMembers { d with id := some (← Decode.string v) } members
    | "fields" => do ObjectSchema.ofMembers { d with properties := some (← Property.listOfJson v) } members
    | "additional_properties" => do
      ObjectSchema.ofMembers { d with additionalProperties := ← Decode.boolean v } members
    | _ => ObjectSchema.ofMembers d members

/-- An object schema from an array of `count` values. -/
def ObjectSchema.ofItems (count : Nat) : List Json → Except DecodeError ObjectSchema
  | id :: properties :: rest => do
    let id ← Decode.string id
    let properties ← Property.listOfJson properties
    let additional ← match rest with
      | v :: _ => Decode.boolean v
      | [] => pure false
    ObjectSchema.form.checkCount count
    return ⟨id, properties, additional⟩
  | items => do
    match items with
    | id :: _ => let _ ← Decode.string id
    | [] => pure ()
    .error (.shortRecord count "ObjectSchema" 3)

def Property.listOfJson : Json → Except DecodeError (List Property)
  | .array items => Property.ofEach items
  | v => .error (.wrongType v.found .sequence)

def Property.ofEach : List Json → Except DecodeError (List Property)
  | [] => .ok []
  | v :: vs => do
    let p ← Property.ofJson v
    let ps ← Property.ofEach vs
    return p :: ps

def Property.ofJson : Json → Except DecodeError Property
  | .object members => Property.ofMembers {} members
  | .array items => Property.ofItems items.length items
  | v => .error (.wrongType v.found (.record "FieldNode"))

def Property.ofMembers (d : Property.Draft) : List (String × Json) → Except DecodeError Property
  | [] => d.finish
  | (key, v) :: members =>
    match key with
    | "name" => do Property.ofMembers { d with name := some (← Decode.string v) } members
    | "expr" => do Property.ofMembers { d with expr := some (← Expr.ofJson v) } members
    | _ => Property.ofMembers d members

/-- A property from an array of `count` values. -/
def Property.ofItems (count : Nat) : List Json → Except DecodeError Property
  | name :: expr :: _ => do
    let name ← Decode.string name
    let expr ← Expr.ofJson expr
    Property.form.checkCount count
    return ⟨name, expr⟩
  | items => do
    match items with
    | name :: _ => let _ ← Decode.string name
    | [] => pure ()
    .error (.shortRecord count "FieldNode" 2)

end

mutual

def Expr.toJson : Expr → Json
  | .scalar s => .object [("type", .string "Scalar"), ("value", s.toJson)]
  | .placeholder n => .object [("type", .string "Placeholder"), ("value", .string n)]
  | .enumRef n => .object [("type", .string "EnumRef"), ("value", .string n)]
  | .array e => .object [("type", .string "Array"), ("value", e.toJson)]
  | .optional e => .object [("type", .string "Optional"), ("value", e.toJson)]
  | .object o => .object [("type", .string "Object"), ("value", o.toJson)]

def ObjectSchema.toJson : ObjectSchema → Json
  | ⟨id, properties, additional⟩ =>
    .object [("additional_properties", .bool additional), ("fields", .array (Property.eachToJson properties)),
      ("id", .string id)]

def Property.eachToJson : List Property → List Json
  | [] => []
  | p :: ps => p.toJson :: Property.eachToJson ps

def Property.toJson : Property → Json
  | ⟨name, e⟩ => .object [("expr", e.toJson), ("name", .string name)]

end

end SchemaForge
