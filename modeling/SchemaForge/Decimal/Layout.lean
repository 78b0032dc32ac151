import SchemaForge.Decimal.Shortest

/-!
Texts of doubles. A layout says which powers of ten are written without an exponent and which of two nearest decimals
is written. Whole numbers end in `.0`; a number with an exponent has a point only between its digits.
-/

namespace SchemaForge

namespace Decimal

structure Layout where
  /-- The exponents, of the first digit, that are written out with zeros. -/
  isPlain : Int → Bool
  tie : Tie

/-- From `0.00001` up to below `10 ^ 16` without an exponent; of a tie the even digit. -/
def Layout.compact : Layout := ⟨fun e => -5 ≤ e && e < 16, .even⟩

/-- Never an exponent; of a tie the larger number. -/
def Layout.plain : Layout := ⟨fun _ => true, .up⟩

/-- Digits with the point in its place and zeros as needed. -/
def plainDigits (s : Scientific) : List Char :=
  if s.exponent < 0 then
    ['0', '.'] ++ List.replicate (-s.exponent - 1).toNat '0' ++ s.digits
  else
    let whole := s.exponent.toNat + 1
    let fraction := s.digits.drop whole
    s.digits.take whole ++ List.replicate (whole - s.digits.length) '0' ++ ['.'] ++
      (if fraction.isEmpty then ['0'] else fraction)

/-- Digits with the point after the first, and an exponent with a sign. -/
def scientificDigits (s : Scientific) : List Char :=
  let mantissa := match s.digits with
    | [] => []
    | [d] => [d]
    | d :: ds => d :: '.' :: ds
  mantissa ++ ['e', if s.exponent < 0 then '-' else '+'] ++ Nat.toDigits 10 s.exponent.natAbs

/-- The text of a double. -/
def Layout.format (layout : Layout) (x : Float) : String :=
  if x.isNaN then "NaN"
  else
    let sign := if x.toBits.toNat < Nat.pow 2 63 then "" else "-"
    if x.isInf then sign ++ "inf"
    else if x == 0.0 then sign ++ "0.0"
    else
      let s := shortest layout.tie (Binary.ofFloat x)
      sign ++ String.ofList (if layout.isPlain s.exponent then plainDigits s else scientificDigits s)

end Decimal

end SchemaForge
