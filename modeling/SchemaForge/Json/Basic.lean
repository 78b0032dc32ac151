import SchemaForge.Assoc

/-!
JSON values. An object keeps its members as they were written; `canonical` gives the form that values are
decoded from, where the members of every object stand in the order of their keys and each key stands
once, with the value that was written last.
-/

namespace SchemaForge

/-- A number: an integer of 64 bits, signed or unsigned, or else a double. -/
inductive Number where
  | integer (i : Int)
  | real (x : Float)

inductive Json where
  | null
  | bool (b : Bool)
  | number (n : Number)
  | string (s : String)
  | array (items : List Json)
  | object (members : List (String × Json))

namespace Json

instance : Inhabited Json := ⟨null⟩

mutual

/-- Sorts the members of every object by key and keeps the last of those that share a key. -/
def canonical : Json → Json
  | array items => array (canonicalItems items)
  | object members => object (canonicalMembers members)
  | null => null
  | bool b => bool b
  | number n => number n
  | string s => string s

def canonicalItems : List Json → List Json
  | [] => []
  | v :: vs => v.canonical :: canonicalItems vs

def canonicalMembers : List (String × Json) → List (String × Json)
  | [] => []
  | (k, v) :: ms => Assoc.insertNew k v.canonical (canonicalMembers ms)

end

/-- The member of an object with this key, `none` in anything else. -/
def member? (key : String) : Json → Option Json
  | object members => members.lookup key
  | _ => none

end Json

end SchemaForge
