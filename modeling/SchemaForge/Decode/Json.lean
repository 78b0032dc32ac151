import SchemaForge.Json.Basic
import SchemaForge.Decode.Error

/-!
Decoding a JSON value. A record is read from an object, in the order of its members, or from an array that gives its
fields in their order; members with other names are passed over. What has been read so far is a draft, and a field
is found missing only at the end.
-/

namespace SchemaForge

/-- What a value is, in the words of an error. -/
def Json.found : Json → Found
  | .null => .null
  | .bool b => .boolean b
  | .number (.integer i) => .integer i
  | .number (.real x) => .real x
  | .string s => .string s
  | .array _ => .sequence
  | .object _ => .map

namespace Decode

def string : Json → Except DecodeError String
  | .string s => .ok s
  | v => .error (.wrongType v.found .string)

def boolean : Json → Except DecodeError Bool
  | .bool b => .ok b
  | v => .error (.wrongType v.found .boolean)

/-- A list of values that are each read in the same way. -/
def list {α : Type} (item : Json → Except DecodeError α) : Json → Except DecodeError (List α)
  | .array items => items.mapM item
  | v => .error (.wrongType v.found .sequence)

def names : Json → Except DecodeError (List String) := list string

/-- Strings under keys, read in the order of the members. -/
def strings : Json → Except DecodeError (List (String × String))
  | .object members => members.mapM fun m => do return (m.1, ← string m.2)
  | v => .error (.wrongType v.found .map)

/-- What a table has under a name. -/
def select {α : Type} (table : List (String × α)) (name : String) : Except DecodeError α :=
  match table.lookup name with
  | some chosen => .ok chosen
  | none => .error (.unknownChoice name (table.map Prod.fst))

/-- A name out of a table. -/
def choiceName {α : Type} (table : List (String × α)) : Json → Except DecodeError α
  | .string name => select table name
  | v => .error (.wrongType v.found .choiceName)

/-- A name out of a table, or an object whose only key is that name and whose value is null. -/
def choice {α : Type} (table : List (String × α)) (v : Json) : Except DecodeError α :=
  match v with
  | .string name => select table name
  | .object [(name, content)] => do
    let chosen ← select table name
    match content with
    | .null => return chosen
    | content => .error (.wrongType content.found .unit)
  | .object _ => .error .notSingleKey
  | v => .error (.wrongType v.found .choice)

/-- The fields of a record in order. An array has to give the first `required` of them. -/
structure RecordForm where
  name : String
  fields : List String
  required : Nat

/-- Whether an array of this many values gives a record its fields. -/
def RecordForm.checkCount (form : RecordForm) (count : Nat) : Except DecodeError Unit :=
  if count < form.required then .error (.shortRecord count form.name form.fields.length)
  else if form.fields.length < count then .error (.tooLong count)
  else .ok ()

/-- Reads a record: `put` takes the value of a field into the draft and `finish` makes the record of it. -/
def record {δ α : Type} (form : RecordForm) (empty : δ) (put : δ → String → Json → Except DecodeError δ)
    (finish : δ → Except DecodeError α) (v : Json) : Except DecodeError α :=
  match v with
  | .object members => do finish (← members.foldlM (fun d m => put d m.1 m.2) empty)
  | .array items => do
    let draft ← (form.fields.zip items).foldlM (fun d m => put d m.1 m.2) empty
    form.checkCount items.length
    finish draft
  | v => .error (.wrongType v.found (.record form.name))

/-- The value of a field that has to be there. -/
def required {α : Type} (field : String) : Option α → Except DecodeError α
  | some v => .ok v
  | none => .error (.missingField field)

end Decode

end SchemaForge
