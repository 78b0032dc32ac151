import SchemaForge.Assoc

/-!
Values of configuration files. Every value knows the bytes of the file that write it, and a table knows how it was
defined, which decides what may be added to it later. The entries of a table stand in the order of their keys.
-/

namespace SchemaForge

namespace Toml

/-- The bytes of a file from `start` up to before `stop`. -/
structure Span where
  start : Nat
  stop : Nat
  deriving DecidableEq

/-- How a table came to be: by a header of its own, as a part of other headers, by a key with dots, or between
    braces. -/
inductive Origin where
  | header | implied | dotted | inline
  deriving DecidableEq

mutual

inductive Value where
  | string (s : String)
  /-- An integer; `none` if its characters make no number, which matters only where the number is needed. -/
  | integer (i : Option Int)
  /-- A double; `none` for a number beyond the doubles. -/
  | real (x : Option Float)
  | boolean (b : Bool)
  /-- A date, a time or both, in their usual form. -/
  | datetime (text : String)
  /-- An array; `growing` if it was defined by headers, each of which adds a table to it. -/
  | array (growing : Bool) (items : List Node)
  | table (origin : Origin) (entries : List (String × Entry))

/-- A value and where it is written. -/
structure Node where
  value : Value
  span : Span

/-- A value in a table and where its key is written. -/
structure Entry where
  keySpan : Span
  node : Node

end

/-- The entries of a table. -/
abbrev Entries := List (String × Entry)

/-- A part of a key with dots. -/
structure Key where
  name : String
  span : Span

namespace Entries

/-- Puts a value under a key that is not in use. -/
def addNew (entries : Entries) (key : Key) (node : Node) : Option Entries :=
  match entries.lookup key.name with
  | some _ => none
  | none => some (Assoc.insert key.name ⟨key.span, node⟩ entries)

/-- Replaces the value of a key that is in use. -/
def setNode (entries : Entries) (name : String) (entry : Entry) (value : Value) : Entries :=
  Assoc.insert name { entry with node := { entry.node with value } } entries

/-- Applies `change` to the table at the end of a path, where a growing array stands for its last table. Tables
    that are missing on the way are made; with `dotted`, a table with a header of its own may not be on the way. -/
def updateAt (dotted : Bool) (change : Origin → Entries → Option Entries) :
    List Key → Origin → Entries → Option Entries
  | [], origin, entries => change origin entries
  | key :: path, _, entries =>
    match entries.lookup key.name with
    | none => do
      let origin := if dotted then Origin.dotted else .implied
      let inner ← updateAt dotted change path origin []
      return Assoc.insert key.name ⟨key.span, ⟨.table origin inner, key.span⟩⟩ entries
    | some entry =>
      match entry.node.value with
      | .table origin inner =>
        if origin = .inline ∨ (dotted ∧ origin = .header) then none
        else do
          let inner ← updateAt dotted change path origin inner
          return setNode entries key.name entry (.table origin inner)
      | .array true items =>
        match items.reverse with
        | ⟨.table origin inner, span⟩ :: before => do
          let inner ← updateAt dotted change path origin inner
          return setNode entries key.name entry (.array true (⟨.table origin inner, span⟩ :: before).reverse)
        | _ => none
      | _ => none

/-- Adds a value under a key with dots. The tables on the way are made by such keys alone. -/
def assign (path : List Key) (key : Key) (node : Node) (origin : Origin) (entries : Entries) : Option Entries :=
  updateAt true (fun origin entries =>
    if (origin == .dotted) == path.isEmpty then none else addNew entries key node) path origin entries

/-- Opens the table of a header. It may have been implied by other headers before. -/
def openTable (key : Key) (span : Span) (entries : Entries) : Option Entries :=
  match entries.lookup key.name with
  | none => some (Assoc.insert key.name ⟨key.span, ⟨.table .header [], span⟩⟩ entries)
  | some ⟨_, ⟨.table .implied inner, _⟩⟩ =>
    some (Assoc.insert key.name ⟨key.span, ⟨.table .header inner, span⟩⟩ entries)
  | some _ => none

/-- Adds a table to a growing array. -/
def openItem (key : Key) (span : Span) (entries : Entries) : Option Entries :=
  match entries.lookup key.name with
  | none => some (Assoc.insert key.name ⟨key.span, ⟨.array true [⟨.table .header [], span⟩], span⟩⟩ entries)
  | some ⟨keySpan, ⟨.array true items, whole⟩⟩ =>
    some (Assoc.insert key.name ⟨keySpan, ⟨.array true (items ++ [⟨.table .header [], span⟩]), whole⟩⟩ entries)
  | some _ => none

end Entries

end Toml

end SchemaForge
