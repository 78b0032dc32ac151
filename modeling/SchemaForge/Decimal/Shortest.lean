/-!
The shortest decimal digits that read back as a double. A double stands for the interval of reals that round to it;
the answer is a decimal in that interval with the fewest digits, and of those the one nearest to the double.
Everything is computed exactly, on natural numbers.
-/

namespace SchemaForge

namespace Decimal

/-- The size of a finite double: `significand * 2 ^ exponent`. -/
structure Binary where
  significand : Nat
  exponent : Int
  /-- The double below is half as far away as the one above. -/
  atPowerOfTwo : Bool

/-- The size of a finite double, from its bits. -/
def Binary.ofFloat (x : Float) : Binary :=
  let bits : Nat := x.toBits.toNat
  let fraction : Nat := bits % Nat.pow 2 52
  let biased : Nat := bits / Nat.pow 2 52 % Nat.pow 2 11
  if biased = 0 then ⟨fraction, -1074, false⟩
  else ⟨Nat.pow 2 52 + fraction, (biased : Int) - 1075, fraction = 0 && biased != 1⟩

/-- A positive decimal: its digits, without a zero at the end, with the point after the first digit, times a power
    of ten. -/
structure Scientific where
  digits : List Char
  exponent : Int

/-- A ratio of natural numbers. -/
structure Ratio where
  num : Nat
  den : Nat

namespace Ratio

/-- `n * 2 ^ e`. -/
def scaledByTwo (n : Nat) (e : Int) : Ratio :=
  if 0 ≤ e then ⟨n * Nat.pow 2 e.toNat, 1⟩ else ⟨n, Nat.pow 2 (-e).toNat⟩

/-- The ratio divided by `10 ^ e`. -/
def dividedByTen (r : Ratio) (e : Int) : Ratio :=
  if 0 ≤ e then ⟨r.num, r.den * Nat.pow 10 e.toNat⟩ else ⟨r.num * Nat.pow 10 (-e).toNat, r.den⟩

def lt (a b : Ratio) : Bool := a.num * b.den < b.num * a.den

def le (a b : Ratio) : Bool := a.num * b.den ≤ b.num * a.den

/-- The number of digits before the point of a ratio of one or more; for a smaller one, less by the zeros after
    the point. -/
def magnitude (r : Ratio) : Int :=
  if r.den ≤ r.num then (Nat.toDigits 10 (r.num / r.den)).length
  else 1 - (Nat.toDigits 10 (r.den / r.num)).length

end Ratio

/-- The decimals on a grid that round to the double: `n` stands for `n * 10 ^ unit`. -/
def roundsTo (b : Binary) (unit : Int) (n : Nat) : Bool :=
  let low := (Ratio.scaledByTwo (if b.atPowerOfTwo then 4 * b.significand - 1 else 4 * b.significand - 2)
    (b.exponent - 2)).dividedByTen unit
  let high := (Ratio.scaledByTwo (4 * b.significand + 2) (b.exponent - 2)).dividedByTen unit
  if b.significand % 2 = 0 then low.le ⟨n, 1⟩ && Ratio.le ⟨n, 1⟩ high
  else low.lt ⟨n, 1⟩ && Ratio.lt ⟨n, 1⟩ high

/-- Which of two decimals wins when the double lies in the middle between them. -/
inductive Tie where
  | even | up
  deriving DecidableEq

/-- The larger of two neighbours wins a tie. -/
def Tie.favoursAbove (tie : Tie) (below : Nat) : Bool :=
  match tie with
  | even => below % 2 = 1
  | up => true

/-- The neighbour of the double on a grid that rounds to it, the nearer one if both do. -/
def onGrid (tie : Tie) (b : Binary) (unit : Int) : Option Nat :=
  let exact := (Ratio.scaledByTwo b.significand b.exponent).dividedByTen unit
  let below := exact.num / exact.den
  let remainder := exact.num % exact.den
  match roundsTo b unit below, roundsTo b unit (below + 1) with
  | true, true =>
    if exact.den < 2 * remainder ∨ (exact.den = 2 * remainder ∧ tie.favoursAbove below) then some (below + 1)
    else some below
  | true, false => some below
  | false, true => some (below + 1)
  | false, false => none

/-- Removes zeros at the end of digits. -/
def dropTrailingZeros (digits : List Char) : List Char :=
  (digits.reverse.dropWhile (· = '0')).reverse

/-- The shortest decimal that rounds to a positive double. Seventeen digits always do. -/
def shortest (tie : Tie) (b : Binary) : Scientific :=
  let magnitude := (Ratio.scaledByTwo b.significand b.exponent).magnitude
  let found := (List.range 17).findSome? fun i =>
    let unit := magnitude - (i + 1 : Nat)
    (onGrid tie b unit).map fun n => (n, unit)
  match found with
  | some (n, unit) =>
    let digits := Nat.toDigits 10 n
    ⟨dropTrailingZeros digits, digits.length - 1 + unit⟩
  | none => ⟨['0'], 0⟩

end Decimal

end SchemaForge
