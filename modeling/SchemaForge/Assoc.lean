/-!
Finite maps from names, as lists of pairs. A sorted list holds each key once, in the order of its
characters; `insert` and `insertNew` keep it so. Looking a key up is `List.lookup`.
-/

namespace SchemaForge

namespace Assoc
variable {α : Type}

/-- Binds a key, in place of an earlier binding. -/
def insert (key : String) (value : α) : List (String × α) → List (String × α)
  | [] => [(key, value)]
  | (k, v) :: rest =>
    if key < k then (key, value) :: (k, v) :: rest
    else if key = k then (key, value) :: rest
    else (k, v) :: insert key value rest

/-- Binds a key that has no binding yet; a bound key keeps its value. -/
def insertNew (key : String) (value : α) : List (String × α) → List (String × α)
  | [] => [(key, value)]
  | (k, v) :: rest =>
    if key < k then (key, value) :: (k, v) :: rest
    else if key = k then (k, v) :: rest
    else (k, v) :: insertNew key value rest

theorem lookup_insert (key : String) (value : α) (l : List (String × α)) (k : String) :
    (insert key value l).lookup k = if k = key then some value else l.lookup k := by
  induction l with
  | nil => grind [insert]
  | cons p rest ih => grind [insert]

end Assoc

end SchemaForge
