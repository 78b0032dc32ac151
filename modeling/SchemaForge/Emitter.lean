import SchemaForge.Format
import SchemaForge.Fragment
import SchemaForge.Text.Literal

/-!
Writing schemas as source text. An expression is written at a depth, which is where its closing brace stands; the
properties of an object stand one level deeper. A file has its imports, an exported constant and an exported type.
-/

namespace SchemaForge

structure Emitter where
  typeMap : TypeMap := {}
  indent : Indent := .tabs
  lineEnding : LineEnding := .lf

namespace Emitter

def ofOptions (o : Options) : Emitter := ⟨⟨o.typeOverrides⟩, o.indent, o.lineEnding⟩

/-- The second argument of an object schema: its identifier and whether it admits other properties. -/
def objectOptions (e : Emitter) (id : String) (additional : Bool) (depth : Nat) : String :=
  "\x7b\n" ++ e.indent.text (depth + 1) ++ "$id: '#" ++ Literal.escape id ++ "',\n" ++
    e.indent.text (depth + 1) ++ "additionalProperties: " ++ toString additional ++ ",\n" ++
    e.indent.text depth ++ "\x7d"

mutual

/-- The text of an expression. -/
def expr (e : Emitter) : Expr → Nat → String
  | .scalar s, _ => e.typeMap.expression s
  | .placeholder name, _ => "::" ++ name ++ "::"
  | .enumRef name, _ => name
  | .array item, depth => "Type.Array(" ++ e.expr item depth ++ ")"
  | .optional value, depth => "Type.Optional(" ++ e.expr value depth ++ ")"
  | .object ⟨id, properties, additional⟩, depth =>
    "Type.Object(" ++ e.propertyBlock properties depth ++ ", " ++ e.objectOptions id additional depth ++ ")"

/-- The properties of an object between braces. -/
def propertyBlock (e : Emitter) : List Property → Nat → String
  | [], _ => "\x7b\x7d"
  | p :: ps, depth => "\x7b\n" ++ e.propertyLines (p :: ps) (depth + 1) ++ e.indent.text depth ++ "\x7d"

/-- One property a line, each with a comma after it. -/
def propertyLines (e : Emitter) : List Property → Nat → String
  | [], _ => ""
  | ⟨name, value⟩ :: ps, depth =>
    e.indent.text depth ++ name ++ ": " ++ e.expr value depth ++ ",\n" ++ e.propertyLines ps depth

end

def property (e : Emitter) (p : Property) (depth : Nat) : String := p.name ++ ": " ++ e.expr p.expr depth

def object (e : Emitter) (o : ObjectSchema) (depth : Nat) : String := e.expr (.object o) depth

/-! ### Files -/

/-- A file: its imports, an empty line, and its body, in the line ending of the emitter. -/
def file (e : Emitter) (imports : List String) (body : String) : String :=
  let head := if imports.isEmpty then "" else String.intercalate "\n" imports ++ "\n\n"
  e.lineEnding.apply (head ++ body ++ "\n")

/-- The type that goes with an exported constant. -/
def staticType (name : String) : String := "export type " ++ name ++ "Type = Static<typeof " ++ name ++ ">"

/-- The file of one variant of a model's schema. -/
def modelFile (e : Emitter) (model : String) (v : Variant) (schema : ObjectSchema) (imports : List String) : String :=
  let name := model ++ v.exportSuffix
  e.file imports ("export const " ++ name ++ " = " ++ e.object schema 0 ++ "\n\n" ++ staticType name)

/-- The entry of an enum's value in the constant that lists them. -/
def enumEntry (e : Emitter) (value : EnumValue) : String :=
  e.indent.text 1 ++ value.name ++ ": Type.Literal('" ++ Literal.escape value.name ++ "'),\n"

/-- The file of an enum: a constant with its values, the schema of their names, and its type. -/
def enumFile (e : Emitter) (enum : Enum) (imports : List String) : String :=
  let name := enum.name
  e.file imports ("const " ++ name ++ "Const = \x7b\n" ++ String.join (enum.values.map e.enumEntry) ++ "\x7d\n\n" ++
    "export const " ++ name ++ " = Type.KeyOf(Type.Object(" ++ name ++ "Const, \x7b $id: '#" ++
    Literal.escape name ++ "', additionalProperties: false \x7d))\n\n" ++ staticType name)

end Emitter

end SchemaForge
