import SchemaForge.Toml.Token
import SchemaForge.Toml.Scalar

/-!
Reading a configuration file. The reader goes from token to token; it keeps the arrays and inline tables that are open
on a stack, at most 80 of them, and the table that keys of the line belong to as a path from the root. A file that is
not well formed has no value at all; why it has none is not kept.
-/

namespace SchemaForge

namespace Toml

/-- An open array or inline table, from its bracket at `start`. -/
inductive Frame where
  | array (start : Nat) (items : List Node)
  | table (start : Nat) (entries : Entries) (path : List Key) (key : Key)

/-- What has to come next. Paths are kept latest part first. -/
inductive Want where
  | line
  | lineEnd
  /-- After the first bracket of a header. -/
  | header (start : Nat)
  | headerKey (grows : Bool) (start : Nat) (path : List Key)
  | headerNext (grows : Bool) (start : Nat) (path : List Key)
  | headerClose (start : Nat) (path : List Key)
  | key (path : List Key)
  | keyNext (path : List Key)
  /-- The equals sign on a later line than the key, as inline tables allow. -/
  | equals (path : List Key)
  | value
  /-- A scalar that may go on. -/
  | scalar (chars : List Char) (span : Span)
  /-- A scalar and white space after it, which belongs to the scalar if more characters follow. -/
  | scalarGap (chars gap : List Char) (span : Span)
  | firstItem
  | nextItem
  | itemEnd
  | entry
  | entryEnd

structure Reading where
  root : Entries
  /-- The table that the keys of a line belong to. -/
  current : List Key
  /-- The key that the value of the line goes to, after the path to it. -/
  path : List Key
  key : Key
  stack : List Frame
  want : Want

namespace Reading

def start : Reading := ⟨[], [], [], ⟨"", ⟨0, 0⟩⟩, [], .line⟩

def maxDepth : Nat := 80

/-- The number of parts that a key with dots may have. -/
def maxParts : Nat := 80

/-- Characters of keys without quotes. -/
def isBare (c : Char) : Bool := c.isAlphanum || c = '_' || c = '-'

/-- The part of a key that a token writes. -/
def keyPart? (token : Token) (span : Span) : Option Key :=
  match token with
  | .text s => some ⟨s, span⟩
  | .atom chars => if chars.all isBare then some ⟨String.ofList chars, span⟩ else none
  | _ => none

/-- Takes a value of the line into the current table. -/
def assign (r : Reading) (node : Node) : Option Reading := do
  let root ← Entries.updateAt false (fun origin entries => Entries.assign r.path r.key node origin entries)
    r.current .header r.root
  return { r with root, want := .lineEnd }

/-- The state after a whole value. -/
def complete (r : Reading) (node : Node) : Option Reading :=
  match r.stack with
  | [] => r.assign node
  | .array start items :: stack => some { r with stack := .array start (node :: items) :: stack, want := .itemEnd }
  | .table start entries path key :: stack => do
    let entries ← Entries.assign path key node .inline entries
    return { r with stack := .table start entries [] key :: stack, want := .entryEnd }

/-- The state after the bracket that closes the innermost array or inline table. -/
def close (r : Reading) (stop : Nat) : Option Reading :=
  match r.stack with
  | .array start items :: stack =>
    { r with stack }.complete ⟨.array false items.reverse, ⟨start, stop⟩⟩
  | .table start entries _ _ :: stack =>
    { r with stack }.complete ⟨.table .inline entries, ⟨start, stop⟩⟩
  | [] => none

def openFrame (r : Reading) (frame : Frame) (want : Want) : Option Reading :=
  if maxDepth ≤ r.stack.length then none else some { r with stack := frame :: r.stack, want }

/-- The state after a token that starts a value. -/
def takeValue (r : Reading) (token : Token) (span : Span) : Option Reading :=
  match token with
  | .text s | .longText s => r.complete ⟨.string s, span⟩
  | .atom chars => some { r with want := .scalar chars span }
  | .openBracket => r.openFrame (.array span.start []) .firstItem
  | .openBrace => r.openFrame (.table span.start [] [] ⟨"", span⟩) .entry
  | _ => none

/-- Line breaks and comments may stand before a value and before its equals sign. -/
def inTable (r : Reading) : Bool :=
  match r.stack with
  | .table _ _ _ _ :: _ => true
  | _ => false

/-- Takes the parts of a key before its value, in a line or an inline table. -/
def takeKey (r : Reading) (parts : List Key) : Option Reading :=
  match parts with
  | [] => none
  | key :: before =>
    if maxParts ≤ before.length then none
    else match r.stack with
    | [] => some { r with path := before.reverse, key, want := .value }
    | .table start entries _ _ :: stack =>
      some { r with stack := .table start entries before.reverse key :: stack, want := .value }
    | .array _ _ :: _ => none

/-- Opens the table of a header that ends before `stop`. -/
def takeHeader (r : Reading) (grows : Bool) (start stop : Nat) (parts : List Key) : Option Reading :=
  match parts with
  | [] => none
  | key :: before => do
    if maxParts ≤ before.length then none
    let path := before.reverse
    let root ← Entries.updateAt false
      (fun _ entries => if grows then entries.openItem key ⟨start, stop⟩ else entries.openTable key ⟨start, stop⟩)
      path .header r.root
    return { r with root, current := path ++ [key], want := .lineEnd }

/-- The state after a token that follows a value. -/
def takeAfter (r : Reading) (token : Token) (span : Span) : Option Reading :=
  match r.want, token with
  | .lineEnd, .space _ | .lineEnd, .comment => some r
  | .lineEnd, .newline => some { r with want := .line }
  | .itemEnd, .space _ | .itemEnd, .comment | .itemEnd, .newline => some r
  | .itemEnd, .comma => some { r with want := .nextItem }
  | .itemEnd, .closeBracket => r.close span.stop
  | .entryEnd, .space _ | .entryEnd, .comment | .entryEnd, .newline => some r
  | .entryEnd, .comma => some { r with want := .entry }
  | .entryEnd, .closeBrace => r.close span.stop
  | _, _ => none

/-- The scalar ends before this token. -/
def endScalar (r : Reading) (chars : List Char) (place : Span) (token : Token) (span : Span) : Option Reading := do
  let value ← scalar? chars
  let r ← r.complete ⟨value, place⟩
  r.takeAfter token span

/-- The state after one more token. -/
def step (r : Reading) (token : Token) (span : Span) : Option Reading :=
  match r.want, token with
  | .line, .space _ | .line, .newline | .line, .comment => some r
  | .line, .openBracket => some { r with want := .header span.start }
  | .line, token => (keyPart? token span).map fun k => { r with want := .keyNext [k] }
  | .header start, .openBracket => some { r with want := .headerKey true start [] }
  | .header start, .space _ => some { r with want := .headerKey false start [] }
  | .header start, token => (keyPart? token span).map fun k => { r with want := .headerNext false start [k] }
  | .headerKey _ _ _, .space _ => some r
  | .headerKey grows start path, token =>
    (keyPart? token span).map fun k => { r with want := .headerNext grows start (k :: path) }
  | .headerNext _ _ _, .space _ => some r
  | .headerNext grows start path, .dot => some { r with want := .headerKey grows start path }
  | .headerNext true start path, .closeBracket => some { r with want := .headerClose start path }
  | .headerNext false start path, .closeBracket => r.takeHeader false start span.stop path
  | .headerClose start path, .closeBracket => r.takeHeader true start span.stop path
  | .key _, .space _ => some r
  | .key path, token => (keyPart? token span).map fun k => { r with want := .keyNext (k :: path) }
  | .keyNext _, .space _ => some r
  | .keyNext path, .dot => some { r with want := .key path }
  | .keyNext path, .equals => r.takeKey path
  | .keyNext path, .newline | .keyNext path, .comment =>
    if r.inTable then some { r with want := .equals path } else none
  | .equals _, .space _ | .equals _, .newline | .equals _, .comment => some r
  | .equals path, .equals => r.takeKey path
  | .value, .space _ => some r
  | .value, .newline | .value, .comment => if r.inTable then some r else none
  | .value, token => r.takeValue token span
  | .scalar chars before, .dot => some { r with want := .scalar (chars ++ ['.']) ⟨before.start, span.stop⟩ }
  | .scalar chars before, .atom more => some { r with want := .scalar (chars ++ more) ⟨before.start, span.stop⟩ }
  | .scalar chars before, .space gap => some { r with want := .scalarGap chars gap before }
  | .scalar chars before, token => r.endScalar chars before token span
  | .scalarGap chars gap before, .atom more =>
    some { r with want := .scalar (chars ++ gap ++ more) ⟨before.start, span.stop⟩ }
  | .scalarGap chars _ before, token => r.endScalar chars before token span
  | .firstItem, .space _ | .firstItem, .newline | .firstItem, .comment => some r
  | .firstItem, .closeBracket => r.close span.stop
  | .firstItem, token => r.takeValue token span
  | .nextItem, .space _ | .nextItem, .newline | .nextItem, .comment => some r
  | .nextItem, .closeBracket => r.close span.stop
  | .nextItem, token => r.takeValue token span
  | .entry, .space _ | .entry, .newline | .entry, .comment => some r
  | .entry, .closeBrace => r.close span.stop
  | .entry, token => (keyPart? token span).map fun k => { r with want := .keyNext [k] }
  | _, token => r.takeAfter token span

/-- The entries of the file at its end. -/
def finish (r : Reading) : Option Entries :=
  match r.want with
  | .line | .lineEnd => some r.root
  | .scalar chars span | .scalarGap chars _ span =>
    if r.stack.isEmpty then do return (← r.complete ⟨← scalar? chars, span⟩).root else none
  | _ => none

/-- Reads the characters that follow `offset` bytes. -/
def run (r : Reading) (offset : Nat) (cs : List Char) : Option Entries :=
  match cs with
  | [] => r.finish
  | c :: rest =>
    match scanToken c rest with
    | none => none
    | some (token, count) =>
      let stop := offset + c.utf8Size + Json.byteLength (rest.take count)
      match r.step token ⟨offset, stop⟩ with
      | none => none
      | some r => run r stop (rest.drop count)
termination_by cs.length
decreasing_by all_goals grind [List.length_drop]

end Reading

/-- The entries that a file writes, `none` if it is not well formed. A byte order mark in front is passed over. -/
def parse? (text : String) : Option Entries :=
  match text.toList with
  | '\uFEFF' :: cs => Reading.start.run 3 cs
  | cs => Reading.start.run 0 cs

end Toml

end SchemaForge
