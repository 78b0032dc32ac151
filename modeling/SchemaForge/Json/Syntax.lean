import SchemaForge.Json.Number

/-!
Faults of the syntax of a value and the tokens that a text is made of. A fault says how many bytes had been read
when it was found, the byte at fault included; its place in the text is computed from that.
-/

namespace SchemaForge

namespace Json

inductive SyntaxReason where
  | endInValue | endInList | endInObject | endInString
  | noValue | badWord | noColon | noListEnd | noObjectEnd | trailingComma | keyNotString
  | controlCharacter | badEscape | loneSurrogate | shortSurrogate
  | badNumber | numberTooLarge | tooDeep | trailing

def SyntaxReason.message : SyntaxReason → String
  | endInValue => "EOF while parsing a value"
  | endInList => "EOF while parsing a list"
  | endInObject => "EOF while parsing an object"
  | endInString => "EOF while parsing a string"
  | noValue => "expected value"
  | badWord => "expected ident"
  | noColon => "expected \x60:\x60"
  | noListEnd => "expected \x60,\x60 or \x60]\x60"
  | noObjectEnd => "expected \x60,\x60 or \x60\x7d\x60"
  | trailingComma => "trailing comma"
  | keyNotString => "key must be a string"
  | controlCharacter => "control character (\\u0000-\\u001F) found while parsing a string"
  | badEscape => "invalid escape"
  | loneSurrogate => "lone leading surrogate in hex escape"
  | shortSurrogate => "unexpected end of hex escape"
  | badNumber => "invalid number"
  | numberTooLarge => "number out of range"
  | tooDeep => "recursion limit exceeded"
  | trailing => "trailing characters"

structure SyntaxFault where
  reason : SyntaxReason
  bytesRead : Nat

/-- The number of bytes that characters take in UTF-8. -/
def byteLength (cs : List Char) : Nat := cs.foldl (fun n c => n + c.utf8Size) 0

/-- The line, from one, and the number of bytes of that line, that `bytes` bytes of a text reach. -/
def placeAfter (line column : Nat) : List Char → Nat → Nat × Nat
  | [], _ => (line, column)
  | c :: cs, bytes =>
    if bytes < c.utf8Size then (line, column + bytes)
    else if c = '\n' then placeAfter (line + 1) 0 cs (bytes - 1)
    else placeAfter line (column + c.utf8Size) cs (bytes - c.utf8Size)

/-- A fault with its place in the text. -/
structure SyntaxError where
  reason : SyntaxReason
  line : Nat
  column : Nat

def SyntaxFault.locate (fault : SyntaxFault) (text : List Char) : SyntaxError :=
  let place := placeAfter 1 0 text fault.bytesRead
  ⟨fault.reason, place.1, place.2⟩

def SyntaxError.message (e : SyntaxError) : String :=
  e.reason.message ++ " at line " ++ toString e.line ++ " column " ++ toString e.column

inductive Token where
  | openArray | closeArray | openObject | closeObject | colon | comma
  | text (s : String)
  | scalar (v : Json)

/-- Why no token could be read: the character starts none, or a string, word or number went wrong. -/
inductive NoToken where
  | stray
  | broken (quoted : Bool) (fault : SyntaxFault)

/-! ### Strings -/

/-- The character that a letter after a backslash stands for. -/
def shortEscape? : Char → Option Char
  | '"' => some '"'
  | '\\' => some '\\'
  | '/' => some '/'
  | 'b' => some '\x08'
  | 'f' => some '\x0c'
  | 'n' => some '\n'
  | 'r' => some '\r'
  | 't' => some '\t'
  | _ => none

def hexDigit? (c : Char) : Option Nat :=
  if '0' ≤ c ∧ c ≤ '9' then some (c.toNat - '0'.toNat)
  else if 'a' ≤ c ∧ c ≤ 'f' then some (c.toNat - 'a'.toNat + 10)
  else if 'A' ≤ c ∧ c ≤ 'F' then some (c.toNat - 'A'.toNat + 10)
  else none

/-- The number that hexadecimal digits write, `none` if one is no such digit. -/
def hexValue? (cs : List Char) : Option Nat :=
  cs.foldl (fun n c => do return (← n) * 16 + (← hexDigit? c)) (some 0)

/-- Four hexadecimal digits, the first of them after `offset` bytes. -/
def fourDigits (offset : Nat) (cs : List Char) : Except SyntaxFault Nat :=
  if byteLength cs < 4 then .error ⟨.endInString, offset + byteLength cs⟩
  else match hexValue? (cs.take 4) with
    | some n => .ok n
    | none => .error ⟨.badEscape, offset + 4⟩

def isLeading (n : Nat) : Bool := 0xD800 ≤ n && n ≤ 0xDBFF

def isTrailing (n : Nat) : Bool := 0xDC00 ≤ n && n ≤ 0xDFFF

/-- The character after a backslash and `u`, and how many characters write it: a leading surrogate takes a
    second escape. -/
def unicodeEscape (offset : Nat) (cs : List Char) : Except SyntaxFault (Char × Nat) := do
  let n ← fourDigits offset cs
  if isTrailing n then .error ⟨.loneSurrogate, offset + 4⟩
  else if isLeading n then
    match cs.drop 4 with
    | [] => .error ⟨.endInString, offset + 4⟩
    | '\\' :: [] => .error ⟨.endInString, offset + 5⟩
    | '\\' :: 'u' :: rest =>
      let m ← fourDigits (offset + 6) rest
      if isTrailing m then .ok (Char.ofNat ((n - 0xD800) * 0x400 + (m - 0xDC00) + 0x10000), 10)
      else .error ⟨.loneSurrogate, offset + 10⟩
    | '\\' :: _ => .error ⟨.shortSurrogate, offset + 6⟩
    | _ => .error ⟨.shortSurrogate, offset + 5⟩
  else .ok (Char.ofNat n, 4)

/-- The rest of a string after its opening quote: its characters, latest first, and how many characters were
    read, the closing quote included. -/
def scanString (offset count : Nat) (done cs : List Char) : Except SyntaxFault (List Char × Nat) :=
  match cs with
  | [] => .error ⟨.endInString, offset⟩
  | '"' :: _ => .ok (done, count + 1)
  | '\\' :: [] => .error ⟨.endInString, offset + 1⟩
  | '\\' :: 'u' :: rest =>
    match unicodeEscape (offset + 2) rest with
    | .error fault => .error fault
    | .ok (c, used) => scanString (offset + 2 + used) (count + 2 + used) (c :: done) (rest.drop used)
  | '\\' :: c :: rest =>
    match shortEscape? c with
    | some d => scanString (offset + 2) (count + 2) (d :: done) rest
    | none => .error ⟨.badEscape, offset + 2⟩
  | c :: rest =>
    if c < ' ' then .error ⟨.controlCharacter, offset + 1⟩
    else scanString (offset + c.utf8Size) (count + 1) (c :: done) rest
termination_by cs.length
decreasing_by all_goals grind [List.length_drop]

/-! ### Words and numbers -/

/-- The letters that remain of a word such as `null`, and the value of the word. -/
def scanWord (offset : Nat) (value : Json) (letters cs : List Char) : Except SyntaxFault (Json × Nat) :=
  go offset letters cs
where
  go (offset : Nat) : List Char → List Char → Except SyntaxFault (Json × Nat)
    | [], _ => .ok (value, letters.length)
    | _ :: _, [] => .error ⟨.endInValue, offset⟩
    | l :: ls, c :: cs => if l = c then go (offset + 1) ls cs else .error ⟨.badWord, offset + 1⟩

/-- Decimal digits, of which there must be one at least. -/
def scanDigits (offset : Nat) (cs : List Char) : Except SyntaxFault (List Char) :=
  match cs with
  | [] => .error ⟨.endInValue, offset⟩
  | c :: _ => if c.isDigit then .ok (cs.takeWhile Char.isDigit) else .error ⟨.badNumber, offset + 1⟩

/-- The whole part of a number: a zero has no digit after it. -/
def scanWhole (offset : Nat) (cs : List Char) : Except SyntaxFault (List Char) :=
  match cs with
  | '0' :: c :: _ => if c.isDigit then .error ⟨.badNumber, offset + 2⟩ else .ok ['0']
  | _ => scanDigits offset cs

/-- The sign of an exponent, if it is written. -/
def exponentSign : List Char → Bool × Nat
  | '+' :: _ => (false, 1)
  | '-' :: _ => (true, 1)
  | _ => (false, 0)

/-- The number after its sign, and how many characters write it. -/
def scanNumber (offset : Nat) (negative : Bool) (cs : List Char) : Except SyntaxFault (Number × Nat) := do
  let whole ← scanWhole offset cs
  let wholeEnd := whole.length
  let (significand, dropped) := Number.takeDigits Number.maxSignificand 0 whole
  let rest := cs.drop wholeEnd
  let fraction ← match rest with
    | '.' :: after => some <$> scanDigits (offset + wholeEnd + 1) after
    | _ => pure none
  let digits := fraction.getD []
  let (significand, left) := Number.takeDigits Number.maxSignificand significand digits
  let power : Int := dropped.length - (digits.length - left.length : Nat)
  let count := wholeEnd + (if fraction.isSome then digits.length + 1 else 0)
  match cs.drop count with
  | e :: after =>
    if e = 'e' ∨ e = 'E' then
      let (down, signed) := exponentSign after
      let start := count + 1 + signed
      let written ← scanDigits (offset + start) (after.drop signed)
      let stop := start + written.length
      match Number.takeDigits Number.maxExponent 0 written with
      | (exponent, []) =>
        match Number.scaled negative significand (if down then power - exponent else power + exponent) with
        | some x => .ok (.real x, stop)
        | none => .error ⟨.numberTooLarge, offset + stop⟩
      | (_, beyond) =>
        if significand ≠ 0 ∧ down = false then
          .error ⟨.numberTooLarge, offset + start + (written.length - beyond.length) + 1⟩
        else .ok (.real (Number.withSign negative 0.0), stop)
    else finish significand power fraction.isSome dropped count
  | [] => finish significand power fraction.isSome dropped count
where
  /-- A number without an exponent. -/
  finish (significand : Nat) (power : Int) (isFraction : Bool) (dropped : List Char) (count : Nat) :
      Except SyntaxFault (Number × Nat) :=
    if isFraction ∨ dropped ≠ [] then
      match Number.scaled negative significand power with
      | some x => .ok (.real x, count)
      | none => .error ⟨.numberTooLarge, offset + count⟩
    else .ok (Number.ofSignificand negative significand, count)

/-! ### Tokens -/

def isSpace (c : Char) : Bool := c = ' ' || c = '\n' || c = '\t' || c = '\r'

/-- The token that starts with `c`, which stands after `offset` bytes, and how many of the characters after `c`
    belong to it. -/
def scanToken (offset : Nat) (c : Char) (rest : List Char) : Except NoToken (Token × Nat) :=
  match c with
  | '[' => .ok (.openArray, 0)
  | ']' => .ok (.closeArray, 0)
  | '\x7b' => .ok (.openObject, 0)
  | '\x7d' => .ok (.closeObject, 0)
  | ':' => .ok (.colon, 0)
  | ',' => .ok (.comma, 0)
  | 'n' => word .null ['u', 'l', 'l']
  | 't' => word (.bool true) ['r', 'u', 'e']
  | 'f' => word (.bool false) ['a', 'l', 's', 'e']
  | '"' =>
    match scanString (offset + 1) 0 [] rest with
    | .ok (chars, count) => .ok (.text (String.ofList chars.reverse), count)
    | .error fault => .error (.broken true fault)
  | '-' =>
    match scanNumber (offset + 1) true rest with
    | .ok (n, count) => .ok (.scalar (.number n), count)
    | .error fault => .error (.broken false fault)
  | c =>
    if c.isDigit then
      match scanNumber offset false (c :: rest) with
      | .ok (n, count) => .ok (.scalar (.number n), count - 1)
      | .error fault => .error (.broken false fault)
    else .error .stray
where
  word (value : Json) (letters : List Char) : Except NoToken (Token × Nat) :=
    match scanWord (offset + 1) value letters rest with
    | .ok (v, count) => .ok (.scalar v, count)
    | .error fault => .error (.broken false fault)

end Json

end SchemaForge
