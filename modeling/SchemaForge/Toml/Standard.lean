import SchemaForge.Toml.Decode
import SchemaForge.Toml.Reader

/-!
Values that every reader of the format can hold: integers of 64 bits, doubles in their range, and dates and times
that exist, also where one is written as the table that it counts as. A file may be well formed and still hold other
values; they are harmless as long as nothing asks for them.
-/

namespace SchemaForge

namespace Toml

/-- The text of a date or time. -/
def Value.isDatetimeText : Value → Bool
  | .string s => (datetime? s.toList).isSome
  | _ => false

/-- The entries count as a date or time if the first of their keys says so; no other entry matters then. -/
def Entries.datetimeValue? (entries : Entries) : Option Value :=
  match entries with
  | (name, entry) :: _ => if name = datetimeKey then some entry.node.value else none
  | [] => none

mutual

/-- A value that every reader can hold, with all that is in it. -/
def Value.isStandard : Value → Bool
  | .integer none | .real none => false
  | .integer (some i) => -Nat.pow 2 63 ≤ i && i < Nat.pow 2 63
  | .array _ items => Node.allStandard items
  | .table _ entries =>
    match Entries.datetimeValue? entries with
    | some v => v.isDatetimeText
    | none => Entry.allStandard entries
  | _ => true

def Node.allStandard : List Node → Bool
  | [] => true
  | ⟨v, _⟩ :: ns => v.isStandard && Node.allStandard ns

def Entry.allStandard : List (String × Entry) → Bool
  | [] => true
  | (_, ⟨_, ⟨v, _⟩⟩) :: es => v.isStandard && Entry.allStandard es

end

/-- The text is well formed, and every reader can hold what it writes. The file as a whole is a table whatever its
    keys are. -/
def isStandard (text : String) : Bool := (parse? text).any Entry.allStandard

end Toml

end SchemaForge
