import SchemaForge.Json.Reader
import SchemaForge.Decode.Json
import SchemaForge.Document.Basic

/-!
The JSON form of documents. `ofJson` decodes a value and `toJson` writes one, for each type. A document's text is an
object that may hold the document under `datamodel`, beside other things.
-/

namespace SchemaForge

namespace FieldDefault

/-- An object with a string `name`, and with an array `args` if it has that key at all, is a function; everything
    else is a literal. -/
def ofJson (v : Json) : FieldDefault :=
  match v.member? "name", v.member? "args" with
  | some (.string name), none => function name []
  | some (.string name), some (.array args) => function name args
  | _, _ => literal v

def toJson : FieldDefault → Json
  | function name args => .object [("args", .array args), ("name", .string name)]
  | literal v => v

end FieldDefault

namespace Field

structure Draft where
  name : Option String := none
  type : Option String := none
  isList : Bool := false
  isRequired : Bool := false
  hasDefaultValue : Bool := false
  isId : Bool := false
  default : Option FieldDefault := none

def form : Decode.RecordForm :=
  ⟨"Field", ["name", "type", "isList", "isRequired", "hasDefaultValue", "isId", "default"], 2⟩

/-- A default of null is no default. -/
def defaultOfJson : Json → Option FieldDefault
  | .null => none
  | v => some (FieldDefault.ofJson v)

def Draft.put (d : Draft) (key : String) (v : Json) : Except DecodeError Draft :=
  match key with
  | "name" => do return { d with name := some (← Decode.string v) }
  | "type" => do return { d with type := some (← Decode.string v) }
  | "isList" => do return { d with isList := ← Decode.boolean v }
  | "isRequired" => do return { d with isRequired := ← Decode.boolean v }
  | "hasDefaultValue" => do return { d with hasDefaultValue := ← Decode.boolean v }
  | "isId" => do return { d with isId := ← Decode.boolean v }
  | "default" => .ok { d with default := defaultOfJson v }
  | _ => .ok d

def Draft.finish (d : Draft) : Except DecodeError Field := do
  let name ← Decode.required "name" d.name
  let type ← Decode.required "type" d.type
  return ⟨name, type, d.isList, d.isRequired, d.hasDefaultValue, d.isId, d.default⟩

def ofJson (v : Json) : Except DecodeError Field := Decode.record form {} Draft.put Draft.finish v

def toJson (f : Field) : Json :=
  .object ((f.default.map fun d => ("default", d.toJson)).toList ++
    [("hasDefaultValue", .bool f.hasDefaultValue), ("isId", .bool f.isId), ("isList", .bool f.isList),
      ("isRequired", .bool f.isRequired), ("name", .string f.name), ("type", .string f.type)])

end Field

namespace Model

structure Draft where
  name : Option String := none
  fields : List Field := []

def form : Decode.RecordForm := ⟨"Model", ["name", "fields"], 1⟩

def Draft.put (d : Draft) (key : String) (v : Json) : Except DecodeError Draft :=
  match key with
  | "name" => do return { d with name := some (← Decode.string v) }
  | "fields" => do return { d with fields := ← Decode.list Field.ofJson v }
  | _ => .ok d

def Draft.finish (d : Draft) : Except DecodeError Model := do
  return ⟨← Decode.required "name" d.name, d.fields⟩

def ofJson (v : Json) : Except DecodeError Model := Decode.record form {} Draft.put Draft.finish v

def toJson (m : Model) : Json :=
  .object [("fields", .array (m.fields.map Field.toJson)), ("name", .string m.name)]

end Model

namespace EnumValue

def form : Decode.RecordForm := ⟨"EnumValue", ["name"], 1⟩

def put (d : Option String) (key : String) (v : Json) : Except DecodeError (Option String) :=
  match key with
  | "name" => some <$> Decode.string v
  | _ => .ok d

def finish (d : Option String) : Except DecodeError EnumValue := do
  return ⟨← Decode.required "name" d⟩

def ofJson (v : Json) : Except DecodeError EnumValue := Decode.record form none put finish v

def toJson (e : EnumValue) : Json := .object [("name", .string e.name)]

end EnumValue

namespace Enum

structure Draft where
  name : Option String := none
  values : List EnumValue := []

def form : Decode.RecordForm := ⟨"Enum", ["name", "values"], 1⟩

def Draft.put (d : Draft) (key : String) (v : Json) : Except DecodeError Draft :=
  match key with
  | "name" => do return { d with name := some (← Decode.string v) }
  | "values" => do return { d with values := ← Decode.list EnumValue.ofJson v }
  | _ => .ok d

def Draft.finish (d : Draft) : Except DecodeError Enum := do
  return ⟨← Decode.required "name" d.name, d.values⟩

def ofJson (v : Json) : Except DecodeError Enum := Decode.record form {} Draft.put Draft.finish v

def toJson (e : Enum) : Json :=
  .object [("name", .string e.name), ("values", .array (e.values.map EnumValue.toJson))]

end Enum

namespace Document

structure Draft where
  models : Option (List Model) := none
  enums : List Enum := []

def form : Decode.RecordForm := ⟨"Document", ["models", "enums"], 1⟩

def Draft.put (d : Draft) (key : String) (v : Json) : Except DecodeError Draft :=
  match key with
  | "models" => do return { d with models := some (← Decode.list Model.ofJson v) }
  | "enums" => do return { d with enums := ← Decode.list Enum.ofJson v }
  | _ => .ok d

def Draft.finish (d : Draft) : Except DecodeError Document := do
  return ⟨← Decode.required "models" d.models, d.enums⟩

def ofJson (v : Json) : Except DecodeError Document := Decode.record form {} Draft.put Draft.finish v

def toJson (d : Document) : Json :=
  .object [("enums", .array (d.enums.map Enum.toJson)), ("models", .array (d.models.map Model.toJson))]

/-- Why a text is no document. -/
inductive Error where
  | malformed (e : Json.SyntaxError)
  | invalid (e : DecodeError)

def Error.message : Error → String
  | malformed e => "Invalid DMMF document: " ++ e.message
  | invalid e => "Invalid DMMF document: " ++ e.message .compact

/-- The document itself: what an object holds under `datamodel`, or else the whole value. -/
def unwrap (v : Json) : Json := (v.member? "datamodel").getD v

/-- The document that a value holds. -/
def ofValue (v : Json) : Except Error Document :=
  match ofJson (unwrap v.canonical) with
  | .ok d => .ok d
  | .error e => .error (.invalid e)

/-- The document that a text writes. -/
def parse (text : String) : Except Error Document :=
  match Json.parse text with
  | .ok v => ofValue v
  | .error e => .error (.malformed e)

end Document

end SchemaForge
