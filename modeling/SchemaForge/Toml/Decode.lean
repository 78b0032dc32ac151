import SchemaForge.Decode.Error
import SchemaForge.Json.Syntax
import SchemaForge.Toml.Basic

/-!
Decoding values of configuration files. An error points at the bytes of the file that it is about, and its message
shows the line they are in. A date or time counts as a table with one entry, its text.
-/

namespace SchemaForge

namespace Toml

/-- Why a value could not be decoded. -/
inductive Reason where
  | value (e : DecodeError)
  | notChoice
  | noChoice
  | manyChoices
  | contentNotEmpty (isArray : Bool)
  | contentNotTable (kind : String)
  | integerTooLarge
  | realTooLarge

def Reason.message : Reason → String
  | value e => e.message .plain
  | notChoice => "wanted string or table"
  | noChoice => "wanted exactly 1 element, found 0 elements"
  | manyChoices => "wanted exactly 1 element, more than 1 element"
  | contentNotEmpty isArray => "expected empty " ++ (if isArray then "array" else "table")
  | contentNotTable kind => "expected table, found " ++ kind
  | integerTooLarge => "integer number overflowed"
  | realTooLarge => "floating-point number overflowed"

structure Error where
  reason : Reason
  span : Span

/-! ### Messages -/

/-- The place of a byte in a text: the lines before it, the characters of its line before it, and that line. -/
structure Place where
  line : Nat
  column : Nat
  content : List Char

/-- The place of the byte that comes after `bytes` bytes; `before` holds the characters of the line so far, latest
    first. -/
def placeOf (line : Nat) (before : List Char) : List Char → Nat → Place
  | [], _ => ⟨line, before.length, before.reverse⟩
  | c :: cs, bytes =>
    if bytes < c.utf8Size then ⟨line, before.length, before.reverse ++ (c :: cs).takeWhile (· ≠ '\n')⟩
    else if c = '\n' then placeOf (line + 1) [] cs (bytes - 1)
    else placeOf line (c :: before) cs (bytes - c.utf8Size)

/-- The message of an error in a file of this text: the line with the place marked under it, and the reason. -/
def Error.message (e : Error) (text : String) : String :=
  let place := placeOf 0 [] text.toList e.span.start
  let number := toString (place.line + 1)
  let gutter := String.ofList (List.replicate (number.length + 1) ' ') ++ "|"
  let marks := max 1 (min (e.span.stop - e.span.start) (Json.byteLength place.content - place.column))
  "TOML parse error at line " ++ number ++ ", column " ++ toString (place.column + 1) ++ "\n" ++
    gutter ++ "\n" ++
    number ++ " | " ++ String.ofList place.content ++ "\n" ++
    gutter ++ String.ofList (List.replicate (place.column + 1) ' ' ++ List.replicate marks '^') ++ "\n" ++
    e.reason.message ++ "\n"

/-! ### Decoding -/

/-- The kind of a value, as errors name it. -/
def Value.kind : Value → String
  | .string _ => "string"
  | .integer _ => "integer"
  | .real _ => "float"
  | .boolean _ => "boolean"
  | .datetime _ => "datetime"
  | .array _ _ => "array"
  | .table _ _ => "table"

/-- What a value is, in the words of an error. Numbers beyond 128 bits, and beyond the doubles, are errors
    themselves. -/
def Value.found : Value → Except Reason Found
  | .string s => .ok (.string s)
  | .integer none => .error .integerTooLarge
  | .integer (some i) =>
    if -Nat.pow 2 63 ≤ i ∧ i < Nat.pow 2 64 then .ok (.integer i)
    else if -Nat.pow 2 127 ≤ i ∧ i < Nat.pow 2 128 then .ok (.wideInteger i)
    else .error .integerTooLarge
  | .real (some x) => .ok (.real x)
  | .real none => .error .realTooLarge
  | .boolean b => .ok (.boolean b)
  | .datetime _ => .ok .map
  | .array _ _ => .ok .sequence
  | .table _ _ => .ok .map

/-- The error of a value of the wrong type. -/
def Node.refuse {α : Type} (n : Node) (expected : Expected) : Except Error α :=
  match n.value.found with
  | .ok found => .error ⟨.value (.wrongType found expected), n.span⟩
  | .error reason => .error ⟨reason, n.span⟩

def Node.string (n : Node) (expected : Expected) : Except Error String :=
  match n.value with
  | .string s => .ok s
  | _ => n.refuse expected

/-- The key under which a date or time stands when it counts as a table. -/
def datetimeKey : String := "$__toml_private_datetime"

/-- The entries of a table, in the order of their keys. -/
def Node.entries? (n : Node) : Option Entries :=
  match n.value with
  | .table _ entries => some entries
  | .datetime text => some [(datetimeKey, ⟨n.span, ⟨.string text, n.span⟩⟩)]
  | _ => none

/-- A table of strings. -/
def Node.strings (n : Node) : Except Error (List (String × String)) :=
  match n.entries? with
  | some entries => entries.mapM fun e => do return (e.1, ← e.2.node.string .string)
  | none => n.refuse .map

/-- What follows a choice that is written as the key of a table has to be empty. -/
def Node.checkEmpty (n : Node) : Except Error Unit :=
  match n.value with
  | .array _ [] | .table _ [] => .ok ()
  | .array _ _ => .error ⟨.contentNotEmpty true, n.span⟩
  | .table _ _ => .error ⟨.contentNotEmpty false, n.span⟩
  | v => .error ⟨.contentNotTable v.kind, n.span⟩

/-- A name out of a list of choices, or a table whose only key is that name. -/
def Node.choice {α : Type} (table : List (String × α)) (n : Node) : Except Error α :=
  match n.value with
  | .string name => select name n.span
  | .table _ [] => .error ⟨.noChoice, n.span⟩
  | .table _ [(name, entry)] => do
    let chosen ← select name entry.keySpan
    entry.node.checkEmpty
    return chosen
  | .table _ _ => .error ⟨.manyChoices, n.span⟩
  | _ => .error ⟨.notChoice, n.span⟩
where
  select (name : String) (span : Span) : Except Error α :=
    match table.lookup name with
    | some chosen => .ok chosen
    | none => .error ⟨.value (.unknownChoice name (table.map Prod.fst)), span⟩

mutual

/-- A value that is passed over; its numbers have to be in range all the same. -/
def Value.pass (span : Span) : Value → Except Error Unit
  | .array _ items => Node.passAll items
  | .table _ entries => Entry.passAll entries
  | v =>
    match v.found with
    | .ok _ => .ok ()
    | .error reason => .error ⟨reason, span⟩

def Node.passAll : List Node → Except Error Unit
  | [] => .ok ()
  | ⟨v, span⟩ :: ns => do
    v.pass span
    Node.passAll ns

def Entry.passAll : List (String × Entry) → Except Error Unit
  | [] => .ok ()
  | (_, ⟨_, ⟨v, span⟩⟩) :: es => do
    v.pass span
    Entry.passAll es

end

/-- Reads a record over its defaults, from a table or from an array of its fields in order: `put` takes the value of
    a field, and is `none` for other keys. -/
def Node.record {α : Type} (name : String) (fields : List String) (defaults : α)
    (put : α → String → Node → Option (Except Error α)) (n : Node) : Except Error α :=
  match n.entries?, n.value with
  | some entries, _ => entries.foldlM (fun r e => take r e.1 e.2.node) defaults
  | none, .array _ items => (fields.zip items).foldlM (fun r f => take r f.1 f.2) defaults
  | none, _ => n.refuse (.record name)
where
  take (r : α) (key : String) (n : Node) : Except Error α :=
    match put r key n with
    | some result => result
    | none => do
      n.value.pass n.span
      return r

end Toml

end SchemaForge
