import SchemaForge.Toml.Basic
import SchemaForge.Json.Syntax

/-!
Scalars that are written without quotes: booleans, integers in four bases, doubles, dates and times. Digits may be
grouped by single underscores between them. An integer is told from its first digits and its underscores; whether
the rest of it makes a number is left open until the number is needed.
-/

namespace SchemaForge

namespace Toml

/-- Digits of a kind with single underscores between them, the underscores left out. -/
def grouped? (isDigit : Char → Bool) : List Char → Option (List Char)
  | [] => none
  | [c] => if isDigit c then some [c] else none
  | c :: '_' :: rest => if isDigit c then (grouped? isDigit rest).map (c :: ·) else none
  | c :: rest => if isDigit c then (grouped? isDigit rest).map (c :: ·) else none

/-- The number that digits write in a base. -/
def natural (base : Nat) (digits : List Char) : Nat :=
  digits.foldl (fun n c => n * base + (Json.hexDigit? c).getD 0) 0

/-- Decimal digits without a needless zero in front. -/
def whole? (cs : List Char) : Option (List Char) := do
  let digits ← grouped? Char.isDigit cs
  if digits.head? = some '0' ∧ digits.length ≠ 1 then none else some digits

/-- The double nearest to `digits * 10 ^ exponent`; `none` if it is beyond the doubles. -/
def nearestReal (digits : List Char) (exponent : Int) : Option Float :=
  let n := natural 10 digits
  let size := (Nat.toDigits 10 n).length + exponent
  if n = 0 ∨ size < -400 then some 0.0
  else if 400 < size then none
  else
    let x := if 0 ≤ exponent then Float.ofScientific (n * Nat.pow 10 exponent.toNat) false 0
      else Float.ofScientific n true (-exponent).toNat
    if x.isInf then none else some x

/-- An exponent: a sign that may be missing, and digits. -/
def exponent? (cs : List Char) : Option Int :=
  match cs with
  | '-' :: digits => (grouped? Char.isDigit digits).map fun ds => -(natural 10 ds : Int)
  | '+' :: digits => (grouped? Char.isDigit digits).map fun ds => (natural 10 ds : Int)
  | digits => (grouped? Char.isDigit digits).map fun ds => (natural 10 ds : Int)

/-- A double without its sign: digits with a fraction or an exponent or both. -/
def real? (negative : Bool) (cs : List Char) : Option Value := do
  let mantissa := cs.takeWhile fun c => c ≠ 'e' && c ≠ 'E'
  let power := cs.drop (mantissa.length + 1)
  let hasPower := mantissa.length < cs.length
  let ones := mantissa.takeWhile (· ≠ '.')
  let hasFraction := ones.length < mantissa.length
  let digits ← whole? ones
  let fraction ← if hasFraction then grouped? Char.isDigit (mantissa.drop (ones.length + 1)) else some []
  let exponent ← if hasPower then exponent? power else some 0
  let x := nearestReal (digits ++ fraction) (exponent - fraction.length)
  return .real (x.map fun x => if negative then -x else x)

def isHexDigit (c : Char) : Bool := (Json.hexDigit? c).isSome

/-- Every underscore stands between two characters that are digits in some base. -/
def isLooselyGrouped : List Char → Bool
  | [] => true
  | c :: '_' :: rest => isHexDigit c && rest.head?.any isHexDigit && isLooselyGrouped rest
  | _ :: rest => isLooselyGrouped rest

/-- A decimal integer without its sign: digits, and groups after underscores, with no space in them. -/
def integer? (negative : Bool) (cs : List Char) : Option Value :=
  let first := cs.takeWhile Char.isDigit
  let rest := cs.drop first.length
  if first = [] ∨ (first.head? = some '0' ∧ cs.length ≠ 1) then none
  else if rest = [] ∨ (rest.head? = some '_' ∧ ' ' ∉ rest ∧ isLooselyGrouped cs) then
    some (.integer ((grouped? Char.isDigit cs).map fun ds => if negative then -natural 10 ds else natural 10 ds))
  else none

/-- A decimal number without its sign. -/
def decimal? (negative : Bool) (cs : List Char) : Option Value :=
  if cs.any fun c => c = '.' || c = 'e' || c = 'E' then real? negative cs else integer? negative cs

/-- A number in another base after its mark; there may be no digits at all. -/
def based? (base : Nat) (isDigit : Char → Bool) (cs : List Char) : Option Value :=
  if cs = [] then some (.integer none)
  else (grouped? isDigit cs).map fun ds => .integer (some (natural base ds))

/-! ### Dates and times -/

/-- A number of exactly two digits. -/
def two? : List Char → Option Nat
  | [a, b] => if a.isDigit ∧ b.isDigit then some (natural 10 [a, b]) else none
  | _ => none

def daysIn (year month : Nat) : Nat :=
  if month = 2 then (if year % 4 = 0 ∧ (year % 100 ≠ 0 ∨ year % 400 = 0) then 29 else 28)
  else if month = 4 ∨ month = 6 ∨ month = 9 ∨ month = 11 then 30
  else 31

/-- A date that exists. -/
def isDate : List Char → Bool
  | [a, b, c, d, '-', e, f, '-', g, h] =>
    if [a, b, c, d].all Char.isDigit then
      match two? [e, f], two? [g, h] with
      | some month, some day =>
        1 ≤ month && month ≤ 12 && 1 ≤ day && day ≤ daysIn (natural 10 [a, b, c, d]) month
      | _, _ => false
    else false
  | _ => false

/-- The fraction of a second to nine digits, without zeros at its end. -/
def fractionText (digits : List Char) : List Char :=
  match ((digits.take 9).reverse.dropWhile (· = '0')).reverse with
  | [] => []
  | ds => '.' :: ds

/-- A time of day in its usual form; seconds that are missing are zero. -/
def time? (cs : List Char) : Option (List Char) := do
  let hour ← two? (cs.take 2)
  let minute ← two? ((cs.drop 3).take 2)
  if cs[2]? ≠ some ':' ∨ 23 < hour ∨ 59 < minute then none
  match cs.drop 5 with
  | [] => some (cs.take 5 ++ [':', '0', '0'])
  | ':' :: rest =>
    let second ← two? (rest.take 2)
    if 60 < second then none
    match rest.drop 2 with
    | [] => some (cs.take 8)
    | '.' :: digits => if digits ≠ [] ∧ digits.all Char.isDigit then some (cs.take 8 ++ fractionText digits) else none
    | _ => none
  | _ => none

/-- The offset from universal time in its usual form. -/
def offset? : List Char → Option (List Char)
  | [z] => if z = 'Z' ∨ z = 'z' then some ['Z'] else none
  | sign :: h :: i :: ':' :: rest => do
    let hours ← two? [h, i]
    let minutes ← two? rest
    if (sign ≠ '+' ∧ sign ≠ '-') ∨ 23 < hours ∨ 59 < minutes then none
    else some ((if hours = 0 ∧ minutes = 0 then '+' else sign) :: h :: i :: ':' :: rest)
  | _ => none

/-- A time of day that an offset may follow. -/
def timeWithOffset? (cs : List Char) : Option (List Char) := do
  let time := cs.takeWhile fun c => c.isDigit || c = ':' || c = '.'
  let t ← time? time
  match cs.drop time.length with
  | [] => some t
  | rest => (offset? rest).map (t ++ ·)

/-- A date, a time, or a date and a time. -/
def datetime? (cs : List Char) : Option (List Char) :=
  if isDate (cs.take 10) then
    match cs.drop 10 with
    | [] => some cs
    | mark :: rest =>
      if mark = 'T' ∨ mark = 't' ∨ mark = ' ' then (timeWithOffset? rest).map fun t => cs.take 10 ++ 'T' :: t
      else none
  else time? cs

/-- The value of a scalar without quotes. -/
def scalar? (cs : List Char) : Option Value :=
  match cs with
  | ['t', 'r', 'u', 'e'] => some (.boolean true)
  | ['f', 'a', 'l', 's', 'e'] => some (.boolean false)
  | '0' :: 'x' :: rest => based? 16 isHexDigit rest
  | '0' :: 'o' :: rest => based? 8 (fun c => '0' ≤ c && c ≤ '7') rest
  | '0' :: 'b' :: rest => based? 2 (fun c => c = '0' || c = '1') rest
  | '+' :: rest => signed false rest
  | '-' :: rest => signed true rest
  | cs => (signed false cs).orElse fun _ => (datetime? cs).map fun t => .datetime (String.ofList t)
where
  signed (negative : Bool) (cs : List Char) : Option Value :=
    match cs with
    | ['i', 'n', 'f'] => some (.real (some (if negative then -(1.0 / 0.0) else 1.0 / 0.0)))
    | ['n', 'a', 'n'] => some (.real (some (0.0 / 0.0)))
    | cs => decimal? negative cs

end Toml

end SchemaForge
