import SchemaForge.Decode.Json

/-!
Names in the order in which they were first seen. Every operation adds a name at the end, and only if it is not there
yet; a list that was decoded is kept as it is, also with repeated names.
-/

namespace SchemaForge

structure References where
  names : List String
  deriving DecidableEq, Repr

namespace References

def empty : References := ⟨[]⟩

instance : Inhabited References := ⟨empty⟩

def contains (r : References) (name : String) : Bool := r.names.contains name

/-- Adds a name at the end unless it is there. -/
def insert (r : References) (name : String) : References :=
  if r.contains name then r else ⟨r.names ++ [name]⟩

/-- Inserts all names of a list in their order. -/
def insertAll (r : References) (names : List String) : References := names.foldl insert r

/-- Inserts the names of another list. -/
def extend (r other : References) : References := r.insertAll other.names

/-- The first occurrences in a list. -/
def ofList (names : List String) : References := empty.insertAll names

def size (r : References) : Nat := r.names.length

def isEmpty (r : References) : Bool := r.names.isEmpty

def ofJson (v : Json) : Except DecodeError References := References.mk <$> Decode.names v

def toJson (r : References) : Json := .array (r.names.map Json.string)

theorem contains_iff {r : References} {name : String} : r.contains name = true ↔ name ∈ r.names := by
  simp [contains]

theorem mem_insert {r : References} {name x : String} : x ∈ (r.insert name).names ↔ x ∈ r.names ∨ x = name := by
  unfold insert
  split
  · rename_i h
    rw [contains_iff] at h
    grind
  · simp

end References

end SchemaForge
