/-!
The shortest decimal that reads back as a given floating point number, found in exact arithmetic. The
number is a whole number of quarter units in its last place, and every decimal between the two
midpoints to its neighbours reads back as it.
-/

namespace TypedTree.Decimal

/-- The number `numerator / denominator` and the interval of the numbers that round to it, all over
one denominator. The ends belong to the interval if `closed`. -/
structure Rounding where
  low : Nat
  value : Nat
  high : Nat
  denominator : Nat
  closed : Bool

/-- The interval around `mantissa * 2 ^ (exponent - 1074)`. Below a power of two the neighbour is
only half as far away. -/
def Rounding.of (mantissa exponent : Nat) (powerOfTwo : Bool) : Rounding :=
  let scale := Nat.pow 2 exponent
  { low := (4 * mantissa - if powerOfTwo then 1 else 2) * scale
    value := 4 * mantissa * scale
    high := (4 * mantissa + 2) * scale
    denominator := 4 * Nat.pow 2 1074
    closed := mantissa % 2 = 0 }

/-- A decimal with the value `digits * 10 ^ exponent`. -/
structure Scientific where
  digits : Nat
  exponent : Int
deriving DecidableEq, Repr

namespace Rounding

def contains (range : Rounding) (numerator : Nat) : Bool :=
  if range.closed then range.low ≤ numerator && numerator ≤ range.high
  else range.low < numerator && numerator < range.high

/-- The point of the grid of step `10 ^ exponent` that lies nearest to the value, if it reads back. -/
def onGrid? (range : Rounding) (exponent : Int) : Option Scientific :=
  let up := Nat.pow 10 (-exponent).toNat
  let unit := range.denominator * Nat.pow 10 exponent.toNat
  let scaled : Rounding :=
    { range with low := range.low * up, value := range.value * up, high := range.high * up }
  let below := scaled.value / unit
  let rest := scaled.value % unit
  let first := if 2 * rest < unit || (2 * rest = unit && below % 2 = 0) then below else below + 1
  let second := if first = below then below + 1 else below
  [first, second].findSome? fun digits =>
    if digits ≠ 0 && scaled.contains (digits * unit) then some ⟨digits, exponent⟩ else none

/-- The power of ten of the first digit of the value. -/
def magnitude (range : Rounding) : Int :=
  if range.denominator ≤ range.value then
    ((Nat.toDigits 10 (range.value / range.denominator)).length : Int) - 1
  else
    match (List.range 400).find? fun n => range.denominator ≤ range.value * Nat.pow 10 n with
    | some n => -(n : Int)
    | none => 0

/-- Tries one digit, then two, and so on; seventeen always suffice. -/
def shortest (range : Rounding) : Scientific :=
  let top := range.magnitude
  ((List.range 17).findSome? fun (n : Nat) => range.onGrid? (top - (n : Nat))).getD ⟨0, 0⟩

end Rounding

def Scientific.trim (number : Scientific) : Scientific :=
  let digits := Nat.toDigits 10 number.digits
  let kept := (digits.reverse.dropWhile (· = '0')).reverse
  if number.digits = 0 then number
  else
    let dropped := digits.length - kept.length
    ⟨number.digits / Nat.pow 10 dropped, number.exponent + dropped⟩

def shortest (x : Float) : Scientific :=
  let bits := x.toBits.toNat
  let leading := Nat.pow 2 52
  let fraction := bits % leading
  let biased := bits / leading % Nat.pow 2 11
  if biased = 0 then
    if fraction = 0 then ⟨0, 0⟩ else (Rounding.of fraction 0 false).shortest.trim
  else
    (Rounding.of (leading + fraction) (biased - 1) (fraction = 0 && 1 < biased)).shortest.trim

end TypedTree.Decimal
