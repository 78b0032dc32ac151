import SchemaForge.Decimal.Layout
import SchemaForge.Text.Quoted

/-!
Why a value could not be decoded. An error names what was found and what was expected; `DecodeError.message` puts it
into words.
-/

namespace SchemaForge

/-- What was found where something else was expected. -/
inductive Found where
  | null
  | boolean (b : Bool)
  | integer (i : Int)
  /-- An integer that 64 bits do not hold. -/
  | wideInteger (i : Int)
  | real (x : Float)
  | string (s : String)
  | sequence
  | map

/-- What was expected. -/
inductive Expected where
  | string
  | boolean
  | sequence
  | map
  | unit
  | path
  /-- One of a fixed set of names. -/
  | choice
  /-- One of a fixed set of names, and nothing else. -/
  | choiceName
  | record (name : String)
  /-- A node with its tag beside its content. -/
  | tagged (name : String)

inductive DecodeError where
  | wrongType (found : Found) (expected : Expected)
  /-- A map stands for a choice, but has not exactly one key. -/
  | notSingleKey
  /-- An array ends before all the required fields of a record. -/
  | shortRecord (count : Nat) (name : String) (fields : Nat)
  /-- An array ends before the content of a tagged node. -/
  | shortTagged (count : Nat) (name : String)
  | tooLong (count : Nat)
  | missingField (field : String)
  | unknownChoice (name : String) (allowed : List String)

/-- Words for what was found; `layout` says how a double is written. -/
def Found.describe (layout : Decimal.Layout) : Found → String
  | null => "null"
  | boolean b => "boolean \x60" ++ toString b ++ "\x60"
  | integer i => "integer \x60" ++ toString i ++ "\x60"
  | wideInteger i => "integer \x60" ++ toString i ++ "\x60 as " ++ (if i < Nat.pow 2 127 then "i128" else "u128")
  | real x => "floating point \x60" ++ layout.format x ++ "\x60"
  | string s => "string " ++ Text.quoted s
  | sequence => "sequence"
  | map => "map"

def Expected.describe : Expected → String
  | string => "a string"
  | boolean => "a boolean"
  | sequence => "a sequence"
  | map => "a map"
  | unit => "unit"
  | path => "path string"
  | choice => "string or map"
  | choiceName => "variant identifier"
  | record name => "struct " ++ name
  | tagged name => "adjacently tagged enum " ++ name

/-- A name between backticks. -/
def ticked (name : String) : String := "\x60" ++ name ++ "\x60"

/-- Words for a set of allowed names. -/
def describeChoices : List String → String
  | [a] => "expected " ++ ticked a
  | [a, b] => "expected " ++ ticked a ++ " or " ++ ticked b
  | names => "expected one of " ++ String.intercalate ", " (names.map ticked)

def DecodeError.message (layout : Decimal.Layout) : DecodeError → String
  | wrongType found expected =>
    "invalid type: " ++ found.describe layout ++ ", expected " ++ expected.describe
  | notSingleKey => "invalid value: map, expected map with a single key"
  | shortRecord count name fields =>
    "invalid length " ++ toString count ++ ", expected struct " ++ name ++ " with " ++ toString fields ++
      (if fields = 1 then " element" else " elements")
  | shortTagged count name =>
    "invalid length " ++ toString count ++ ", expected adjacently tagged enum " ++ name
  | tooLong count => "invalid length " ++ toString count ++ ", expected fewer elements in array"
  | missingField field => "missing field " ++ ticked field
  | unknownChoice name allowed => "unknown variant " ++ ticked name ++ ", " ++ describeChoices allowed

end SchemaForge
