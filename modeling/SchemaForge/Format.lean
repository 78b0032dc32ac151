import SchemaForge.Decode.Json

/-!
How generated text is laid out: the unit of indentation, the line ending and the modules that are imported.
-/

namespace SchemaForge

inductive Indent where
  | tabs | spaces2 | spaces4
  deriving DecidableEq, Repr

namespace Indent

def name : Indent → String
  | tabs => "tabs"
  | spaces2 => "spaces2"
  | spaces4 => "spaces4"

def table : List (String × Indent) := [tabs, spaces2, spaces4].map fun i => (i.name, i)

def ofJson (v : Json) : Except DecodeError Indent := Decode.choice table v

def toJson (i : Indent) : Json := .string i.name

/-- The text of one level. -/
def unit : Indent → String
  | tabs => "\t"
  | spaces2 => "  "
  | spaces4 => "    "

/-- The text of a number of levels. -/
def text (i : Indent) : Nat → String
  | 0 => ""
  | depth + 1 => i.unit ++ i.text depth

end Indent

inductive LineEnding where
  | lf | crlf
  deriving DecidableEq, Repr

namespace LineEnding

def name : LineEnding → String
  | lf => "lf"
  | crlf => "crlf"

def table : List (String × LineEnding) := [lf, crlf].map fun e => (e.name, e)

def ofJson (v : Json) : Except DecodeError LineEnding := Decode.choice table v

def toJson (e : LineEnding) : Json := .string e.name

def text : LineEnding → String
  | lf => "\n"
  | crlf => "\r\n"

/-- Writes every line feed of a text as this line ending. -/
def apply (e : LineEnding) (s : String) : String :=
  match e with
  | lf => s
  | crlf => String.ofList (s.toList.flatMap fun c => if c = '\n' then ['\r', '\n'] else [c])

end LineEnding

/-- The options of a generation pass. -/
structure Options where
  /-- The module that the schema builder is imported from. -/
  library : String := "@sinclair/typebox"
  /-- What comes before the name of an enum in the path of its module. -/
  enumImportPrefix : String := "./"
  indent : Indent := .tabs
  lineEnding : LineEnding := .lf
  /-- Schema expressions by scalar tag, in the order of the tags. -/
  typeOverrides : List (String × String) := []
  deriving DecidableEq

namespace Options

/-- Overrides the expression of a tag, in place of an earlier override. -/
def withTypeOverride (o : Options) (tag expression : String) : Options :=
  { o with typeOverrides := Assoc.insert tag expression o.typeOverrides }

/-- The import that every file starts with. -/
def libraryImport (o : Options) : String := "import \x7b Type, Static \x7d from '" ++ o.library ++ "'"

/-- The import of an enum's constant from its module. -/
def enumImport (o : Options) (name : String) : String :=
  "import \x7b " ++ name ++ " \x7d from '" ++ o.enumImportPrefix ++ name ++ "'"

/-- The import lines of a file that uses these enums, each line once. -/
def importLines (o : Options) (enums : List String) : List String :=
  enums.foldl (fun lines name => if o.enumImport name ∈ lines then lines else lines ++ [o.enumImport name])
    [o.libraryImport]

end Options

end SchemaForge
