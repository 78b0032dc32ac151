import SchemaForge.Json.Basic

/-!
The value of a number from its digits. Digits are taken into a significand of 64 bits while they fit; what is
left of the whole part only counts as powers of ten, and what is left of the fraction is dropped. The
significand becomes a double and is scaled once by the power of ten that remains, so a result may differ in its
last bits from the nearest double.
-/

namespace SchemaForge

namespace Number

/-- The largest significand: 64 bits, all set. -/
def maxSignificand : Nat := Nat.pow 2 64 - 1

/-- The largest exponent that can be written out. -/
def maxExponent : Nat := Nat.pow 2 31 - 1

/-- The value of a decimal digit. -/
def digit (c : Char) : Nat := c.toNat - '0'.toNat

/-- Appends digits to `n` while the result stays within `limit`; also the digits that were left over. -/
def takeDigits (limit n : Nat) : List Char → Nat × List Char
  | [] => (n, [])
  | d :: ds => if limit < n * 10 + digit d then (n, d :: ds) else takeDigits limit (n * 10 + digit d) ds

/-- The double nearest to a power of ten. -/
def tenTo (e : Nat) : Float := Float.ofScientific 1 false e

/-- Divides by a power of ten, in steps of at most `10 ^ 308`. -/
def scaleDown (x : Float) (e : Nat) : Float :=
  if e ≤ 308 then x / tenTo e
  else if x == 0.0 then x
  else scaleDown (x / tenTo 308) (e - 308)
termination_by e

/-- Multiplies by a power of ten; `none` when the product is beyond the doubles. -/
def scaleUp (x : Float) (e : Nat) : Option Float :=
  if e ≤ 308 then (if (x * tenTo e).isInf then none else some (x * tenTo e))
  else if x == 0.0 then some x
  else none

def withSign (negative : Bool) (x : Float) : Float := if negative then -x else x

/-- The double for a significand and a power of ten; `none` when it is beyond the doubles. -/
def scaled (negative : Bool) (significand : Nat) (exponent : Int) : Option Float :=
  let x := significand.toUInt64.toFloat
  if 0 ≤ exponent then (scaleUp x exponent.toNat).map (withSign negative)
  else some (withSign negative (scaleDown x (-exponent).toNat))

/-- An integer that 64 bits hold stays one, save for a negative zero. -/
def ofSignificand (negative : Bool) (significand : Nat) : Number :=
  if negative then
    if significand = 0 ∨ Nat.pow 2 63 < significand then .real (-significand.toUInt64.toFloat)
    else .integer (-significand)
  else .integer significand

end Number

end SchemaForge
