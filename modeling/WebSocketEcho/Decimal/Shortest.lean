import WebSocketEcho.Decimal

/-!
# Shortest decimals of binary fractions

The decimal with the fewest digits that reads back as a given 64-bit floating-point number, and of
several such decimals the nearest; a tie goes to the even one.  All comparisons are exact, in
natural numbers.
-/

namespace WebSocketEcho.Decimal

/-- A positive quotient of natural numbers, and the quotients between which everything reads back
as it. -/
structure Interval where
  value : Nat
  low : Nat
  high : Nat
  denominator : Nat
  /-- The ends of the interval read back too. -/
  closed : Bool
deriving Repr

namespace Interval

/-- The interval of the number `mantissa * 2 ^ (shift - 1074)`, where `mantissa` is not zero.  Below
a power of two the numbers lie twice as dense. -/
def ofBinary (mantissa shift : Nat) : Interval :=
  let lower := if mantissa = 0x10000000000000 ∧ 0 < shift then 1 else 2
  { value := 4 * mantissa * Nat.pow 2 shift
    low := (4 * mantissa - lower) * Nat.pow 2 shift
    high := (4 * mantissa + 2) * Nat.pow 2 shift
    denominator := Nat.pow 2 1076
    closed := mantissa % 2 = 0 }

/-- Multiplies everything by a power of ten with the given exponent. -/
def scale (i : Interval) (exponent : Int) : Interval :=
  match exponent with
  | .ofNat e =>
    { i with
      value := i.value * Nat.pow 10 e
      low := i.low * Nat.pow 10 e
      high := i.high * Nat.pow 10 e }
  | .negSucc e => { i with denominator := i.denominator * Nat.pow 10 (e + 1) }

def contains (i : Interval) (n : Nat) : Bool :=
  let n := n * i.denominator
  if i.closed then i.low ≤ n && n ≤ i.high else i.low < n && n < i.high

/-- The whole number of the interval next to its value, if a neighbour of the value lies in it. -/
def nearest? (i : Interval) : Option Nat :=
  let below := i.value / i.denominator
  match i.contains below, i.contains (below + 1) with
  | true, false => some below
  | false, true => some (below + 1)
  | false, false => none
  | true, true =>
    let gap := 2 * (i.value - below * i.denominator)
    if gap < i.denominator || (gap = i.denominator && below % 2 = 0) then some below
    else some (below + 1)

/-- The exponent of the first digit: the largest power of ten that is not above the value. -/
def exponent (i : Interval) : Int :=
  let whole := i.value / i.denominator
  if 0 < whole then ((digits whole).length : Int) - 1
  else
    let steps := (List.range 400).find? fun k => i.denominator ≤ i.value * Nat.pow 10 (k + 1)
    Int.negSucc (steps.getD 400)

end Interval

/-- Digits without leading and trailing zeros, and the exponent of the first. -/
structure Scientific where
  digits : List Nat
  exponent : Int
deriving DecidableEq, Repr

def dropZeros (ds : List Nat) : List Nat := (ds.reverse.dropWhile (· == 0)).reverse

/-- The shortest decimal of a positive number with the given interval. -/
def shortest (i : Interval) : Scientific :=
  let first := i.exponent
  let found := (List.range 17).findSome? fun (extra : Nat) =>
    let last := first - (extra : Int)
    (i.scale (-last)).nearest?.map fun n => (n, last)
  let (n, last) := found.getD (0, 0)
  ⟨dropZeros (digits n), last + (digits n).length - 1⟩

/-! ## Written form -/

/-- The exponents of the first digit that are written positionally. -/
def isPositional (exponent : Int) : Bool := -5 ≤ exponent && exponent ≤ 15

def digitChars (ds : List Nat) : List Char := ds.map fun d => Char.ofNat (0x30 + d)

/-- A decimal with at least one place after the point, or in scientific notation with a signed
exponent. -/
def Scientific.chars (s : Scientific) : List Char :=
  if isPositional s.exponent then
    if s.exponent < 0 then
      "0.".toList ++ List.replicate ((-s.exponent).toNat - 1) '0' ++ digitChars s.digits
    else
      let whole := s.exponent.toNat + 1
      let padded := s.digits ++ List.replicate (whole - s.digits.length) 0
      let fraction := padded.drop whole
      digitChars (padded.take whole) ++ '.' ::
        (if fraction.isEmpty then ['0'] else digitChars fraction)
  else
    let fraction := s.digits.drop 1
    digitChars (s.digits.take 1) ++ (if fraction.isEmpty then [] else '.' :: digitChars fraction) ++
      'e' :: (if s.exponent < 0 then '-' else '+') :: Decimal.chars s.exponent.natAbs

/-- The text of a finite 64-bit floating-point number, given by its bits. -/
def floatText (bits : UInt64) : String :=
  let bits := bits.toNat
  let fraction := bits % 0x10000000000000
  let biased := bits / 0x10000000000000 % 0x800
  let sign : List Char := if 0x8000000000000000 ≤ bits then ['-'] else []
  let magnitude : List Char :=
    if biased = 0 ∧ fraction = 0 then "0.0".toList
    else if biased = 0 then (shortest (.ofBinary fraction 0)).chars
    else (shortest (.ofBinary (0x10000000000000 + fraction) (biased - 1))).chars
  String.ofList (sign ++ magnitude)

end WebSocketEcho.Decimal
