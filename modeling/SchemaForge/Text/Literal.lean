/-!
String literals between single quotes. `escape` writes the characters of a literal and `read` reads a literal up to
its closing quote: a backslash starts an escape, of a backslash, a quote, a line feed, a carriage return or a tab.
-/

namespace SchemaForge

namespace Literal

/-- Puts `text` in the place of every `c`. -/
def replace (c : Char) (text cs : List Char) : List Char := cs.flatMap fun d => if d = c then text else [d]

/-- The text between the quotes of a literal: one replacement after the other over the whole text, backslashes first,
    as the later ones put backslashes in. -/
def escape (s : String) : String :=
  let cs := replace '\\' ['\\', '\\'] s.toList
  let cs := replace '\x27' ['\\', '\x27'] cs
  let cs := replace '\n' ['\\', 'n'] cs
  let cs := replace '\r' ['\\', 'r'] cs
  let cs := replace '\t' ['\\', 't'] cs
  String.ofList cs

/-- How a character is written inside a literal. -/
def escapeChar (c : Char) : List Char :=
  if c = '\\' then ['\\', '\\']
  else if c = '\x27' then ['\\', '\x27']
  else if c = '\n' then ['\\', 'n']
  else if c = '\r' then ['\\', 'r']
  else if c = '\t' then ['\\', 't']
  else [c]

/-- The replacements write every character of the text once, whatever stands beside it. -/
theorem escape_eq (s : String) : escape s = String.ofList (s.toList.flatMap escapeChar) := by
  simp only [escape, replace, List.flatMap_assoc]
  congr 2
  funext c
  unfold escapeChar
  by_cases hbackslash : c = '\\'
  · simp [hbackslash]
  by_cases hquote : c = '\x27'
  · simp [hquote]
  by_cases hnewline : c = '\n'
  · simp [hnewline]
  by_cases hreturn : c = '\r'
  · simp [hreturn]
  by_cases htab : c = '\t' <;> simp [hbackslash, hquote, hnewline, hreturn, htab]

/-- The character that an escape stands for, by the letter after its backslash. -/
def unescape? (c : Char) : Option Char :=
  if c = '\\' then some '\\'
  else if c = '\x27' then some '\x27'
  else if c = 'n' then some '\n'
  else if c = 'r' then some '\r'
  else if c = 't' then some '\t'
  else none

/-- Reads the rest of a literal after its opening quote: what it denotes, and the text after the closing quote.
    Line breaks and unknown escapes are refused. -/
def read : List Char → Option (List Char × List Char)
  | [] => none
  | '\\' :: [] => none
  | '\\' :: c :: rest => do
    let d ← unescape? c
    let (denoted, after) ← read rest
    return (d :: denoted, after)
  | c :: rest =>
    if c = '\x27' then some ([], rest)
    else if c = '\n' ∨ c = '\r' then none
    else do
      let (denoted, after) ← read rest
      return (c :: denoted, after)

end Literal

end SchemaForge
