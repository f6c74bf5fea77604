import BranchingStory.Number.Double

/-!
# Doubles as decimal text

Two ways to write a double: the fewest digits that read back as the same double, and a fixed number
of decimal places. Both are computed on exact natural numbers.
-/

namespace BranchingStory
namespace Double

structure SpecialNames where
  nan : String
  infinity : String

/-- Decimal digits without trailing zeros, and the place of the point: the value is
`0.d₁d₂… * 10 ^ point`. -/
structure Digits where
  digits : List Char
  point : Int

/-- The reals that round to one double, as numerators over `4 * unitsPerOne`; both ends belong to
the interval exactly when the mantissa is even. -/
structure RoundingInterval where
  value : Nat
  low : Nat
  high : Nat
  closed : Bool

namespace RoundingInterval

/-- The gap below a power of two is half the gap above it, except among the smallest doubles. -/
def ofParts (mantissa exponent : Nat) : RoundingInterval :=
  let value := 4 * unitCount mantissa exponent
  let gap := 1 <<< exponent
  let below := if mantissa = fullMantissa ∧ 0 < exponent then gap else 2 * gap
  { value
    low := value - below
    high := value + 2 * gap
    closed := mantissa % 2 = 0 }

variable (I : RoundingInterval)

/-- The exponent of the leading digit: `10 ^ e ≤ value < 10 ^ (e + 1)`. No double is smaller than
`10 ^ -400`, so the scaled value is a positive integer whose digits can be counted. -/
def leadingExponent : Int :=
  (Number.digitCount (I.value * Number.powerOfTen 400 / (4 * unitsPerOne)) : Int) - 401

/-- Whether `d * 10 ^ k` rounds to the double; `num / den` is that decimal. -/
def contains (num den : Nat) : Bool :=
  let x := num * (4 * unitsPerOne)
  if I.closed then I.low * den ≤ x && x ≤ I.high * den
  else I.low * den < x && x < I.high * den

/-- The decimal with the given step `10 ^ k` that rounds to the double and is nearest to it, if
there is one; only the two neighbours of the value need to be looked at. -/
def nearest? (k : Int) : Option Nat :=
  let scale := Number.powerOfTen (-k).toNat
  let step := Number.powerOfTen k.toNat
  let lower := I.value * scale / (4 * unitsPerOne * step)
  let upper := lower + 1
  let lowerIn := I.contains (lower * step) scale
  let upperIn := I.contains (upper * step) scale
  let here := I.value * scale
  let toLower := here - lower * step * (4 * unitsPerOne)
  let toUpper := upper * step * (4 * unitsPerOne) - here
  if lowerIn && upperIn then
    if toLower < toUpper then some lower
    else if toUpper < toLower then some upper
    else if lower % 2 = 0 then some lower
    else some upper
  else if lowerIn then some lower
  else if upperIn then some upper
  else none

/-- The first number of digits, from `count` on, with which some decimal reads back. -/
def search (leading : Int) : Nat → Nat → Nat × Int
  | 0, _ => (0, 0)
  | tries + 1, count =>
    let k := leading - count + 1
    match I.nearest? k with
    | some d => (d, k)
    | none => search leading tries (count + 1)

end RoundingInterval

private def dropTrailingZeros (ds : List Char) : List Char :=
  (ds.reverse.dropWhile (· == '0')).reverse

/-- The fewest digits that read back as the double with these parts; of those the nearest. Seventeen
digits always suffice. -/
def shortestDigits (mantissa exponent : Nat) : Digits :=
  if mantissa = 0 then ⟨['0'], 1⟩
  else
    let interval := RoundingInterval.ofParts mantissa exponent
    let found := interval.search interval.leadingExponent 18 1
    let ds := Nat.toDigits 10 found.1
    ⟨dropTrailingZeros ds, ds.length + found.2⟩

namespace Digits

/-- Digits with the point among or beside them; there is always a digit on either side of it. -/
def positional (d : Digits) : List Char :=
  if d.point ≤ 0 then '0' :: '.' :: (List.replicate (-d.point).toNat '0' ++ d.digits)
  else
    let before := d.point.toNat
    if d.digits.length ≤ before then
      d.digits ++ List.replicate (before - d.digits.length) '0' ++ ['.', '0']
    else d.digits.take before ++ '.' :: d.digits.drop before

/-- One digit, the others after a point, and an exponent of at least two digits. -/
def scientific (d : Digits) : List Char :=
  let e := d.point - 1
  let mark := if e < 0 then '-' else '+'
  let size := Nat.toDigits 10 e.natAbs
  let exponent := if size.length < 2 then '0' :: size else size
  let tail := d.digits.drop 1
  d.digits.take 1 ++ (if tail.isEmpty then [] else '.' :: tail) ++ 'e' :: mark :: exponent

def text (d : Digits) : List Char :=
  if -4 < d.point ∧ d.point ≤ 16 then d.positional else d.scientific

end Digits

private def signed (negative : Bool) (body : List Char) : String :=
  String.ofList (if negative then '-' :: body else body)

def text (names : SpecialNames) : Double → String
  | nan => names.nan
  | infinite negative => signed negative names.infinity.toList
  | finite negative mantissa exponent _ => signed negative (shortestDigits mantissa exponent).text

private def padLeft (width : Nat) (ds : List Char) : List Char :=
  List.replicate (width - ds.length) '0' ++ ds

/-- A fixed number of decimal places, rounded from the exact value; a half goes to the even
neighbour. -/
def fixed (names : SpecialNames) (places : Nat) : Double → String
  | nan => names.nan
  | infinite negative => signed negative names.infinity.toList
  | finite negative mantissa exponent _ =>
    let scaled := Number.roundHalfEven (unitCount mantissa exponent * Number.powerOfTen places) unitsPerOne
    let ds := padLeft (places + 1) (Nat.toDigits 10 scaled)
    let whole := ds.take (ds.length - places)
    let fraction := ds.drop (ds.length - places)
    signed negative (if places = 0 then whole else whole ++ '.' :: fraction)

end Double
end BranchingStory
