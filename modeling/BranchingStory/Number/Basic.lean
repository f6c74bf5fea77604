import BranchingStory.Number.Double

/-!
# Numbers of a document

A document tells whole numbers from doubles by how they are written. They keep that kind, and still
compare by exact value: `2 ^ 53 + 1` is not the double `2 ^ 53`.
-/

namespace BranchingStory

/-- A whole number of any size or a double. -/
inductive Number where
  | int (n : Int)
  | double (d : Double)
deriving DecidableEq

namespace Number

/-- The mathematical value of a number, in units of the smallest positive double. -/
inductive Value where
  | undefined
  | infinite (negative : Bool)
  | units (count : Int)
deriving DecidableEq

def value : Number → Value
  | int n => .units (n * Double.unitsPerOne)
  | double .nan => .undefined
  | double (.infinite negative) => .infinite negative
  | double (.finite negative mantissa exponent _) =>
    let count : Int := Double.unitCount mantissa exponent
    .units (if negative then -count else count)

/-- Equality of exact values, whatever the kinds; a NaN equals nothing. -/
def equals (a b : Number) : Bool := a.value != .undefined && a.value == b.value

/-- A number counts as set unless it is zero. -/
def isSet : Number → Bool
  | int n => n != 0
  | double d => !d.isZero

/-- The number as a double, unless it is a whole number too large for any. -/
def toDouble? : Number → Option Double
  | int n => Double.ofInt? n
  | double d => some d

end Number
end BranchingStory
