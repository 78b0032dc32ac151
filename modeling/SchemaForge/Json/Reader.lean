import SchemaForge.Json.Syntax

/-!
Reading a value from text. The reader goes from token to token and keeps the arrays and objects that are open on a
stack, so it recurses on the text alone. Arrays and objects may be nested 127 deep.
-/

namespace SchemaForge

namespace Json

/-- An open array or object, with what has been read of it, latest first. -/
inductive Frame where
  | array (items : List Json)
  | object (members : List (String × Json))
  | member (members : List (String × Json)) (key : String)

/-- What has to come next. -/
inductive Want where
  | value
  | firstItem
  | nextItem
  | firstKey
  | nextKey
  | colon (key : String)
  | separator
  | nothing (read : Json)

/-- The state of the reader between two tokens. -/
structure Reading where
  stack : List Frame
  want : Want

namespace Reading

def start : Reading := ⟨[], .value⟩

/-- The number of arrays and objects that may be open at once. -/
def maxDepth : Nat := 127

/-- The state after a whole value. -/
def complete (v : Json) : List Frame → Reading
  | .array items :: stack => ⟨.array (v :: items) :: stack, .separator⟩
  | .member members key :: stack => ⟨.object ((key, v) :: members) :: stack, .separator⟩
  | stack => ⟨stack, .nothing v⟩

/-- The state after an opening bracket, found after `offset` bytes. -/
def opened (r : Reading) (offset : Nat) (frame : Frame) (want : Want) : Except SyntaxFault Reading :=
  if maxDepth ≤ r.stack.length then .error ⟨.tooDeep, offset + 1⟩ else .ok ⟨frame :: r.stack, want⟩

/-- The closing of the innermost array or object. -/
def close (r : Reading) : Reading :=
  match r.stack with
  | .array items :: stack => complete (Json.array items.reverse) stack
  | .object members :: stack => complete (Json.object members.reverse) stack
  | _ => r

/-- What is wrong with a token where a value is wanted. -/
def refuseValue (offset : Nat) : Except NoToken Token → SyntaxFault
  | .error (.broken _ fault) => fault
  | _ => ⟨.noValue, offset + 1⟩

/-- What is wrong with a token where a key is wanted. -/
def refuseKey (offset : Nat) : Except NoToken Token → SyntaxFault
  | .error (.broken true fault) => fault
  | _ => ⟨.keyNotString, offset + 1⟩

def takeValue (r : Reading) (offset : Nat) (token : Except NoToken Token) : Except SyntaxFault Reading :=
  match token with
  | .ok .openArray => r.opened offset (.array []) .firstItem
  | .ok .openObject => r.opened offset (.object []) .firstKey
  | .ok (.text s) => .ok (complete (.string s) r.stack)
  | .ok (.scalar v) => .ok (complete v r.stack)
  | token => .error (refuseValue offset token)

def takeKey (r : Reading) (offset : Nat) (token : Except NoToken Token) : Except SyntaxFault Reading :=
  match token with
  | .ok (.text key) => .ok ⟨r.stack, .colon key⟩
  | token => .error (refuseKey offset token)

/-- The state after a value inside an array or object when a token follows it. -/
def takeSeparator (r : Reading) (offset : Nat) (token : Except NoToken Token) : Except SyntaxFault Reading :=
  match r.stack, token with
  | .array _ :: _, .ok .comma => .ok ⟨r.stack, .nextItem⟩
  | .array _ :: _, .ok .closeArray => .ok r.close
  | .array _ :: _, _ => .error ⟨.noListEnd, offset + 1⟩
  | _, .ok .comma => .ok ⟨r.stack, .nextKey⟩
  | _, .ok .closeObject => .ok r.close
  | _, _ => .error ⟨.noObjectEnd, offset + 1⟩

/-- The state after one more token, which starts after `offset` bytes. -/
def step (r : Reading) (offset : Nat) (token : Except NoToken Token) : Except SyntaxFault Reading :=
  match r.want, token with
  | .value, token => r.takeValue offset token
  | .firstItem, .ok .closeArray => .ok r.close
  | .firstItem, token => r.takeValue offset token
  | .nextItem, .ok .closeArray => .error ⟨.trailingComma, offset + 1⟩
  | .nextItem, token => r.takeValue offset token
  | .firstKey, .ok .closeObject => .ok r.close
  | .firstKey, token => r.takeKey offset token
  | .nextKey, .ok .closeObject => .error ⟨.trailingComma, offset + 1⟩
  | .nextKey, token => r.takeKey offset token
  | .colon key, .ok .colon =>
    match r.stack with
    | .object members :: stack => .ok ⟨.member members key :: stack, .value⟩
    | stack => .ok ⟨stack, .value⟩
  | .colon _, _ => .error ⟨.noColon, offset + 1⟩
  | .separator, token => r.takeSeparator offset token
  | .nothing _, _ => .error ⟨.trailing, offset + 1⟩

/-- The value at the end of the text, which has `size` bytes. -/
def finish (r : Reading) (size : Nat) : Except SyntaxFault Json :=
  match r.want, r.stack with
  | .nothing v, _ => .ok v
  | .value, _ | .nextItem, _ | .nextKey, _ => .error ⟨.endInValue, size⟩
  | .firstItem, _ | .separator, .array _ :: _ => .error ⟨.endInList, size⟩
  | .firstKey, _ | .colon _, _ | .separator, _ => .error ⟨.endInObject, size⟩

/-- Reads the characters that follow `offset` bytes. -/
def run (r : Reading) (offset : Nat) (cs : List Char) : Except SyntaxFault Json :=
  match cs with
  | [] => r.finish offset
  | c :: rest =>
    if isSpace c then run r (offset + 1) rest
    else
      match scanToken offset c rest with
      | .error reason =>
        match r.step offset (.error reason) with
        | .error fault => .error fault
        | .ok r => r.finish offset
      | .ok (token, count) =>
        match r.step offset (.ok token) with
        | .error fault => .error fault
        | .ok r => run r (offset + c.utf8Size + byteLength (rest.take count)) (rest.drop count)
termination_by cs.length
decreasing_by all_goals grind [List.length_drop]

end Reading

/-- The value that a text writes, its objects as written. -/
def parse (text : String) : Except SyntaxError Json :=
  match Reading.start.run 0 text.toList with
  | .ok v => .ok v
  | .error fault => .error (fault.locate text.toList)

end Json

end SchemaForge
