import SchemaForge.Decode.Json

/-!
What a generation pass yields for one model or enum: the text of its files, and the enums and the unresolved names
that they refer to.
-/

namespace SchemaForge

inductive Entity.Kind where
  | model | enum
  deriving DecidableEq, Repr

namespace Entity.Kind

def name : Entity.Kind → String
  | model => "model"
  | enum => "enum"

def table : List (String × Entity.Kind) := [model, enum].map fun k => (k.name, k)

def ofJson (v : Json) : Except DecodeError Entity.Kind := Decode.choice table v

def toJson (k : Entity.Kind) : Json := .string k.name

end Entity.Kind

structure Entity where
  name : String
  kind : Entity.Kind
  /-- The text of the canonical schema. -/
  canonical : String
  /-- The text of the schema for input, which enums do not have. -/
  input : Option String
  enumImports : List String := []
  unresolved : List String := []
  deriving DecidableEq

namespace Entity

/-- The entity of a model without references. -/
def ofModel (name canonical input : String) : Entity := ⟨name, .model, canonical, some input, [], []⟩

/-- The entity of an enum. -/
def ofEnum (name canonical : String) : Entity := ⟨name, .enum, canonical, none, [], []⟩

def hasInput (e : Entity) : Bool := e.input.isSome

/-- Every reference of the entity was resolved. -/
def isResolved (e : Entity) : Bool := e.unresolved.isEmpty

structure Draft where
  name : Option String := none
  kind : Option Entity.Kind := none
  canonical : Option String := none
  input : Option String := none
  enumImports : List String := []
  unresolved : List String := []

def form : Decode.RecordForm :=
  ⟨"GeneratedEntity", ["name", "kind", "canonical", "input", "enum_imports", "unresolved"], 4⟩

/-- A string or null. -/
def inputOfJson : Json → Except DecodeError (Option String)
  | .null => .ok none
  | v => some <$> Decode.string v

def Draft.put (d : Draft) (key : String) (v : Json) : Except DecodeError Draft :=
  match key with
  | "name" => do return { d with name := some (← Decode.string v) }
  | "kind" => do return { d with kind := some (← Entity.Kind.ofJson v) }
  | "canonical" => do return { d with canonical := some (← Decode.string v) }
  | "input" => do return { d with input := ← inputOfJson v }
  | "enum_imports" => do return { d with enumImports := ← Decode.names v }
  | "unresolved" => do return { d with unresolved := ← Decode.names v }
  | _ => .ok d

def Draft.finish (d : Draft) : Except DecodeError Entity := do
  let name ← Decode.required "name" d.name
  let kind ← Decode.required "kind" d.kind
  let canonical ← Decode.required "canonical" d.canonical
  return ⟨name, kind, canonical, d.input, d.enumImports, d.unresolved⟩

def ofJson (v : Json) : Except DecodeError Entity := Decode.record form {} Draft.put Draft.finish v

/-- The member of a list of names, left out when the list is empty. -/
def namesMember (key : String) : List String → List (String × Json)
  | [] => []
  | names => [(key, .array (names.map Json.string))]

def toJson (e : Entity) : Json :=
  .object ([("canonical", .string e.canonical)] ++ namesMember "enum_imports" e.enumImports ++
    [("input", match e.input with | some text => .string text | none => .null), ("kind", e.kind.toJson),
      ("name", .string e.name)] ++ namesMember "unresolved" e.unresolved)

end Entity

end SchemaForge
