import BranchingStory.Number.Rounding

/-!
# Double-precision numbers

A finite double is a sign and a multiple `mantissa * 2 ^ exponent` of the smallest positive double,
`2 ^ -1074`. Counting in that unit keeps every comparison inside the integers: two finite doubles
are equal as numbers exactly when their unit counts are, and an integer `n` counts `n * 2 ^ 1074`.
-/

namespace BranchingStory

def fullMantissa : Nat := 1 <<< 52

/-- The mantissa has at most 53 bits, and it has exactly 53 unless the exponent is least. -/
def CanonicalParts (mantissa exponent : Nat) : Prop :=
  mantissa < 2 * fullMantissa ∧ exponent ≤ 2045 ∧ (fullMantissa ≤ mantissa ∨ exponent = 0)

instance (mantissa exponent : Nat) : Decidable (CanonicalParts mantissa exponent) :=
  inferInstanceAs (Decidable (_ ∧ _ ∧ _))

/-- A double-precision number; the two zeros differ in their sign. -/
inductive Double where
  | nan
  | infinite (negative : Bool)
  | finite (negative : Bool) (mantissa exponent : Nat) (canonical : CanonicalParts mantissa exponent)
deriving DecidableEq

namespace Double

/-- The smallest positive double is `2 ^ -1074`. -/
def unitExponent : Nat := 1074

/-- How many of the smallest positive double make one. -/
def unitsPerOne : Nat := 1 <<< unitExponent

theorem unitsPerOne_pos : 0 < unitsPerOne := by
  rw [unitsPerOne, Nat.one_shiftLeft]
  exact Nat.two_pow_pos unitExponent

/-- How many of the smallest positive double a mantissa makes with an exponent. -/
def unitCount (mantissa exponent : Nat) : Nat := mantissa <<< exponent

/-- The double with these parts; parts beyond the largest double give an infinity. -/
def ofParts (negative : Bool) (mantissa exponent : Nat) : Double :=
  if h : CanonicalParts mantissa exponent then .finite negative mantissa exponent h
  else .infinite negative

def zero (negative : Bool) : Double := ofParts negative 0 0

def one : Double := ofParts false fullMantissa 1022

/-- The double nearest to `± num / den`, for a positive `den`; a tie goes to the even mantissa. -/
def ofRatio (negative : Bool) (num den : Nat) : Double :=
  let units := num * unitsPerOne
  let exponent := (units / den).log2 - 52
  let mantissa := Number.roundHalfEven units (den <<< exponent)
  if mantissa = 2 * fullMantissa then ofParts negative fullMantissa (exponent + 1)
  else ofParts negative mantissa exponent

/-- A double, unless it is an infinity. -/
def bounded? : Double → Option Double
  | infinite _ => none
  | d => some d

theorem bounded?_eq_none_iff {d : Double} : d.bounded? = none ↔ ∃ negative, d = infinite negative := by
  cases d <;> simp [bounded?]

/-- The double nearest to an integer, unless the integer is too large for any. -/
def ofInt? (n : Int) : Option Double := (ofRatio (decide (n < 0)) n.natAbs 1).bounded?

/-- The double nearest to `± digits * 10 ^ exponent`. Decimals far outside the range of doubles
are decided by their number of digits, so a huge exponent costs nothing. -/
def ofDecimal (negative : Bool) (digits : Nat) (exponent : Int) : Double :=
  let magnitude : Int := Number.digitCount digits + exponent
  if digits = 0 then zero negative
  else if 310 < magnitude then .infinite negative
  else if magnitude < -330 then zero negative
  else if 0 ≤ exponent then ofRatio negative (digits * Number.powerOfTen exponent.toNat) 1
  else ofRatio negative digits (Number.powerOfTen (-exponent).toNat)

def isZero : Double → Bool
  | finite _ mantissa _ _ => mantissa == 0
  | _ => false

end Double
end BranchingStory
