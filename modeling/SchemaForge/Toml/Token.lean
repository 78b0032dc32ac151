import SchemaForge.Toml.Basic
import SchemaForge.Json.Syntax

/-!
The tokens of a configuration file. They do not depend on where they stand: what is neither punctuation, white space,
a comment nor a string is an atom, and atoms are read as keys or as values later.
-/

namespace SchemaForge

namespace Toml

inductive Token where
  | dot | equals | comma | openBracket | closeBracket | openBrace | closeBrace
  /-- White space within a line. -/
  | space (chars : List Char)
  | newline
  | comment
  | text (s : String)
  /-- A string between triple quotes. -/
  | longText (s : String)
  | atom (chars : List Char)

/-- Characters that may not stand in a string or a comment. -/
def isControl (c : Char) : Bool := (c.toNat < 0x20 && c ≠ '\t') || c.toNat = 0x7F

def isInlineSpace (c : Char) : Bool := c = ' ' || c = '\t'

/-- Characters that end an atom. -/
def endsAtom (c : Char) : Bool :=
  isInlineSpace c || c = '.' || c = '=' || c = ',' || c = '[' || c = ']' || c = '\x7b' || c = '\x7d' || c = '#' ||
    c = '\n' || c = '\r'

/-- How many characters of quotes, of `available` in a row, close a string between triple quotes: up to two more
    belong to the string. -/
def closingRun (available : Nat) : Nat := min available 5

/-- The rest of a literal string after its opening quote, and how many characters were read. -/
def scanLiteral (cs : List Char) : Option (List Char × Nat) :=
  let body := cs.takeWhile fun c => c ≠ '\x27' && !isControl c
  match cs.drop body.length with
  | '\x27' :: _ => some (body, body.length + 1)
  | _ => none

/-- The number of characters of the line break that a text starts with. -/
def lineBreak : List Char → Nat
  | '\n' :: _ => 1
  | '\r' :: '\n' :: _ => 2
  | _ => 0

/-- Characters that may stand between triple quotes, before `rest`: a carriage return only as part of a line
    break. -/
def mayStandInLong (c : Char) (rest : List Char) : Bool :=
  !isControl c || c = '\n' || (c = '\r' && rest.head? = some '\n')

/-- The rest of a literal string between triple quotes: its characters, latest first, and how many characters were
    read. -/
def scanLongLiteral (count : Nat) (done : List Char) : List Char → Option (List Char × Nat)
  | [] => none
  | c :: rest =>
    if c = '\x27' then
      let run := 1 + (rest.takeWhile (· = '\x27')).length
      if 3 ≤ run then some (List.replicate (closingRun run - 3) '\x27' ++ done, count + closingRun run)
      else scanLongLiteral (count + 1) (c :: done) rest
    else if mayStandInLong c rest then scanLongLiteral (count + 1) (c :: done) rest
    else none

/-- The character that a letter after a backslash stands for. -/
def shortEscape? : Char → Option Char
  | 'b' => some '\x08'
  | 't' => some '\t'
  | 'n' => some '\n'
  | 'f' => some '\x0c'
  | 'r' => some '\r'
  | 'e' => some '\x1b'
  | '"' => some '"'
  | '\\' => some '\\'
  | _ => none

/-- The number of digits of an escape that gives a code point, by its letter. -/
def codePointDigits : Char → Nat
  | 'x' => 2
  | 'u' => 4
  | 'U' => 8
  | _ => 0

/-- The character of a code point that is written in so many hexadecimal digits. -/
def codePoint? (digits : Nat) (cs : List Char) : Option Char := do
  if cs.length < digits ∨ digits = 0 then none
  let n ← Json.hexValue? (cs.take digits)
  if h : n.isValidChar then some (Char.ofNatAux n h) else none

/-- The number of characters that a backslash at the end of a line removes: the line break and all white space
    around it. -/
def lineContinuation (cs : List Char) : Nat :=
  let spaces := (cs.takeWhile isInlineSpace).length
  let broken := lineBreak (cs.drop spaces)
  if broken = 0 then 0
  else spaces + broken + blank (cs.drop (spaces + broken))
where
  blank : List Char → Nat
    | '\r' :: '\n' :: rest => 2 + blank rest
    | c :: rest => if isInlineSpace c ∨ c = '\n' then 1 + blank rest else 0
    | [] => 0

/-- The rest of a basic string after its opening quote or quotes: its characters, latest first, and how many
    characters were read. Between triple quotes, `long`, it may have line breaks. -/
def scanBasic (long : Bool) (count : Nat) (done : List Char) : List Char → Option (List Char × Nat)
  | [] => none
  | ['\\'] => none
  | '\\' :: e :: after =>
    match shortEscape? e, codePoint? (codePointDigits e) after with
    | some d, _ => scanBasic long (count + 2) (d :: done) after
    | none, some d => scanBasic long (count + 2 + codePointDigits e) (d :: done) (after.drop (codePointDigits e))
    | none, none =>
      let skipped := lineContinuation (e :: after)
      if long ∧ 0 < skipped then scanBasic long (count + 1 + skipped) done (after.drop (skipped - 1)) else none
  | c :: rest =>
    if c = '"' then
      let run := 1 + (rest.takeWhile (· = '"')).length
      if long = false then some (done, count + 1)
      else if 3 ≤ run then some (List.replicate (closingRun run - 3) '"' ++ done, count + closingRun run)
      else scanBasic long (count + 1) (c :: done) rest
    else if (if long then mayStandInLong c rest else !isControl c) then scanBasic long (count + 1) (c :: done) rest
    else none
termination_by cs => cs.length
decreasing_by all_goals grind [List.length_drop]

/-- The token that starts with `c`, and how many of the characters after `c` belong to it. -/
def scanToken (c : Char) (rest : List Char) : Option (Token × Nat) :=
  if c = '.' then some (.dot, 0)
  else if c = '=' then some (.equals, 0)
  else if c = ',' then some (.comma, 0)
  else if c = '[' then some (.openBracket, 0)
  else if c = ']' then some (.closeBracket, 0)
  else if c = '\x7b' then some (.openBrace, 0)
  else if c = '\x7d' then some (.closeBrace, 0)
  else if c = '\n' then some (.newline, 0)
  else if c = '\r' then (if rest.head? = some '\n' then some (.newline, 1) else none)
  else if isInlineSpace c then
    let body := rest.takeWhile isInlineSpace
    some (.space (c :: body), body.length)
  else if c = '#' then
    let body := rest.takeWhile fun c => c ≠ '\n' && c ≠ '\r'
    if body.any isControl then none else some (.comment, body.length)
  else if c = '\x27' then
    match rest with
    | '\x27' :: '\x27' :: body =>
      let first := lineBreak body
      (scanLongLiteral (2 + first) [] (body.drop first)).map fun r => (.longText (String.ofList r.1.reverse), r.2)
    | _ => (scanLiteral rest).map fun r => (.text (String.ofList r.1), r.2)
  else if c = '"' then
    match rest with
    | '"' :: '"' :: body =>
      let first := lineBreak body
      (scanBasic true (2 + first) [] (body.drop first)).map fun r => (.longText (String.ofList r.1.reverse), r.2)
    | _ => (scanBasic false 0 [] rest).map fun r => (.text (String.ofList r.1.reverse), r.2)
  else
    let body := rest.takeWhile fun c => !endsAtom c
    some (.atom (c :: body), body.length)

end Toml

end SchemaForge
