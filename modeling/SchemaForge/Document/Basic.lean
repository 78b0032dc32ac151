import SchemaForge.Json.Basic

/-!
Documents: the models and enums that schemas are generated for. A model is a list of fields. A field has a type tag,
which names a scalar or else a model or an enum of the document.
-/

namespace SchemaForge

/-- The default of a field: a function of the database or a literal. -/
inductive FieldDefault where
  | function (name : String) (args : List Json)
  | literal (v : Json)

namespace FieldDefault

/-- The sequence that a database numbers rows with. -/
def autoincrement : FieldDefault := function "autoincrement" []

def isAutoincrement : FieldDefault → Bool
  | function name _ => name = "autoincrement"
  | literal _ => false

end FieldDefault

structure Field where
  name : String
  type : String
  isList : Bool := false
  isRequired : Bool := false
  hasDefaultValue : Bool := false
  isId : Bool := false
  default : Option FieldDefault := none

namespace Field

/-- A required field of one value. -/
def new (name type : String) : Field := { name, type, isRequired := true }

def withList (f : Field) (on : Bool) : Field := { f with isList := on }

def withRequired (f : Field) (on : Bool) : Field := { f with isRequired := on }

def withId (f : Field) (on : Bool) : Field := { f with isId := on }

/-- Gives the field a default and records that it has one. -/
def withDefault (f : Field) (d : FieldDefault) : Field := { f with default := some d, hasDefaultValue := true }

/-- The database numbers the field. -/
def isAutoincrement (f : Field) : Bool := f.default.any FieldDefault.isAutoincrement

end Field

structure Model where
  name : String
  fields : List Field

structure EnumValue where
  name : String
  deriving DecidableEq

structure Enum where
  name : String
  values : List EnumValue
  deriving DecidableEq

structure Document where
  models : List Model
  enums : List Enum

namespace Document

/-- The first model of this name. -/
def model? (d : Document) (name : String) : Option Model := d.models.find? fun m => m.name = name

/-- The first enum of this name. -/
def enum? (d : Document) (name : String) : Option Enum := d.enums.find? fun e => e.name = name

def modelNames (d : Document) : List String := d.models.map (·.name)

def enumNames (d : Document) : List String := d.enums.map (·.name)

end Document

end SchemaForge
