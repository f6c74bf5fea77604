import BranchingStory.Number.Basic
import Mathlib.Algebra.Order.Ring.Nat
import Mathlib.Tactic.Common
import Mathlib.Tactic.Ring

/-!
# Whole numbers that no double can hold

The largest double has the largest mantissa with the largest exponent. A whole number is rounded to a double
with the exponent that its bit length asks for, so it is too large in one of two ways: it has more bits than
the largest double, or it has as many and rounding carries past the largest mantissa. Both come to the same
bound: half a step above the largest double, which a tie to even still sends up.
-/

namespace BranchingStory

namespace Number

/-- Rounding gets above an odd number exactly from half a unit above it on. -/
theorem lt_roundHalfEven_iff {num den k : Nat} (hden : 0 < den) (hodd : k % 2 = 1) :
    k < roundHalfEven num den ↔ (2 * k + 1) * den ≤ 2 * num := by
  have hsplit : den * (num / den) + num % den = num := Nat.div_add_mod num den
  have hrest : num % den < den := Nat.mod_lt num hden
  have hlow := div_le_roundHalfEven num den
  have hhigh := roundHalfEven_le num den
  have htwice : (2 * k + 1) * den = 2 * (den * k) + den := by ring
  rcases Nat.lt_trichotomy (num / den) k with hlt | heq | hgt
  · have hmul : den * (num / den) + den ≤ den * k := by
      rw [← Nat.mul_succ]
      exact Nat.mul_le_mul_left den hlt
    constructor
    · omega
    · omega
  · have hmul : den * (num / den) = den * k := by rw [heq]
    unfold roundHalfEven
    dsimp only
    split
    · omega
    · split
      · omega
      · rw [if_neg (by omega)]
        omega
  · have hmul : den * k + den ≤ den * (num / den) := by
      rw [← Nat.mul_succ]
      exact Nat.mul_le_mul_left den hgt
    constructor
    · omega
    · omega

end Number

namespace Double

def maxMantissa : Nat := 2 * fullMantissa - 1

/-- The largest double is `maxMantissa` in steps of two to this power and one. -/
def halfStepExponent : Nat := 970

/-- The least natural number that is too large for a double: half a step above the largest one. -/
def overflow : Nat := (2 * maxMantissa + 1) <<< halfStepExponent

theorem maxMantissa_add_one : maxMantissa + 1 = 2 * fullMantissa := by decide

theorem ofParts_eq_infinite_iff {negative sign : Bool} {mantissa exponent : Nat} :
    ofParts negative mantissa exponent = .infinite sign ↔
      ¬ CanonicalParts mantissa exponent ∧ negative = sign := by
  unfold ofParts
  split <;> simp_all

section Whole

variable {n : Nat}

theorem log2_units (hn : n ≠ 0) : (n * unitsPerOne).log2 = n.log2 + unitExponent := by
  have hpos : n * unitsPerOne ≠ 0 := Nat.mul_ne_zero hn unitsPerOne_pos.ne'
  have hlow := Nat.mul_le_mul_right unitsPerOne (Nat.log2_self_le hn)
  have hhigh := Nat.mul_lt_mul_of_pos_right (Nat.lt_log2_self (n := n)) unitsPerOne_pos
  rw [Nat.log2_eq_iff hpos, unitsPerOne, Nat.one_shiftLeft, Nat.pow_add, Nat.add_right_comm, Nat.pow_add]
  rw [unitsPerOne, Nat.one_shiftLeft] at hlow hhigh
  exact ⟨hlow, hhigh⟩

def roundedMantissa (n : Nat) : Nat :=
  Number.roundHalfEven (n * unitsPerOne) (1 <<< (n.log2 + 1022))

theorem fullMantissa_mul_step (e : Nat) : fullMantissa * 1 <<< (e + 1022) = 2 ^ e * unitsPerOne := by
  have hexponent : 52 + (e + 1022) = e + unitExponent := by
    rw [unitExponent]
    omega
  rw [fullMantissa, unitsPerOne, Nat.one_shiftLeft, Nat.one_shiftLeft, Nat.one_shiftLeft, ← Nat.pow_add,
    ← Nat.pow_add, hexponent]

theorem roundedMantissa_bounds (hn : n ≠ 0) :
    fullMantissa ≤ roundedMantissa n ∧ roundedMantissa n ≤ maxMantissa + 1 := by
  have hden : 0 < 1 <<< (n.log2 + 1022) := by
    rw [Nat.one_shiftLeft]
    exact Nat.two_pow_pos _
  have hstep := fullMantissa_mul_step n.log2
  have hlow : fullMantissa ≤ n * unitsPerOne / 1 <<< (n.log2 + 1022) := by
    rw [Nat.le_div_iff_mul_le hden, hstep]
    exact Nat.mul_le_mul_right unitsPerOne (Nat.log2_self_le hn)
  have hhigh : n * unitsPerOne / 1 <<< (n.log2 + 1022) < 2 * fullMantissa := by
    rw [Nat.div_lt_iff_lt_mul hden, Nat.mul_assoc, hstep, ← Nat.mul_assoc, ← Nat.pow_succ']
    exact Nat.mul_lt_mul_of_pos_right Nat.lt_log2_self unitsPerOne_pos
  have hle : n * unitsPerOne / 1 <<< (n.log2 + 1022) ≤ roundedMantissa n := Number.div_le_roundHalfEven _ _
  have hge : roundedMantissa n ≤ n * unitsPerOne / 1 <<< (n.log2 + 1022) + 1 := Number.roundHalfEven_le _ _
  refine ⟨hlow.trans hle, ?_⟩
  rw [maxMantissa_add_one]
  exact hge.trans hhigh

theorem ofRatio_eq_infinite_iff (hn : n ≠ 0) {negative sign : Bool} : ofRatio negative n 1 = .infinite sign ↔
    (1023 < n.log2 ∨ n.log2 = 1023 ∧ maxMantissa < roundedMantissa n) ∧ negative = sign := by
  have hexponent : (n * unitsPerOne / 1).log2 - 52 = n.log2 + 1022 := by
    rw [Nat.div_one, log2_units hn]
    rfl
  obtain ⟨hfull, hmax⟩ := roundedMantissa_bounds hn
  have hcarry := maxMantissa_add_one
  have hpositive : 0 < fullMantissa := by decide
  unfold ofRatio
  dsimp only
  rw [hexponent]
  change (if roundedMantissa n = 2 * fullMantissa then _ else ofParts negative (roundedMantissa n) _) = _ ↔ _
  -- A carry makes the exponent one larger, so it matters only at the largest one.
  split
  · rw [ofParts_eq_infinite_iff, CanonicalParts]
    simp only [and_congr_left_iff]
    intro _
    omega
  · rw [ofParts_eq_infinite_iff, CanonicalParts]
    simp only [and_congr_left_iff]
    intro _
    omega

theorem overflow_eq : overflow = (2 * maxMantissa + 1) * 2 ^ halfStepExponent := by
  rw [overflow, Nat.shiftLeft_eq]

theorem overflow_le_of_lt (h : 1023 < n.log2) : overflow ≤ n := by
  have hn : n ≠ 0 := by
    rintro rfl
    rw [Nat.log2_zero] at h
    omega
  calc
    overflow = (2 * maxMantissa + 1) * 2 ^ halfStepExponent := overflow_eq
    _ ≤ 2 ^ 54 * 2 ^ halfStepExponent := Nat.mul_le_mul_right _ (by decide)
    _ = 2 ^ (54 + halfStepExponent) := by rw [Nat.pow_add]
    _ ≤ n := (Nat.le_log2 hn).mp h

theorem lt_overflow_of_lt (h : n.log2 < 1023) : n < overflow := by
  calc
    n < 2 ^ (n.log2 + 1) := Nat.lt_log2_self
    _ ≤ 2 ^ (53 + halfStepExponent) := Nat.pow_le_pow_right Nat.two_pos h
    _ = 2 ^ 53 * 2 ^ halfStepExponent := by rw [Nat.pow_add]
    _ ≤ (2 * maxMantissa + 1) * 2 ^ halfStepExponent := Nat.mul_le_mul_right _ (by decide)
    _ = overflow := overflow_eq.symm

theorem overflow_le_iff_of_eq (h : n.log2 = 1023) : overflow ≤ n ↔ maxMantissa < roundedMantissa n := by
  have hexponent : n.log2 + 1022 = halfStepExponent + (unitExponent + 1) := by
    rw [h]
    rfl
  have hden : 1 <<< (n.log2 + 1022) = 2 ^ halfStepExponent * (2 * unitsPerOne) := by
    rw [hexponent, unitsPerOne, Nat.one_shiftLeft, Nat.one_shiftLeft, ← Nat.pow_succ', ← Nat.pow_add]
  have htwice : 2 * (n * unitsPerOne) = n * (2 * unitsPerOne) := Nat.mul_left_comm _ _ _
  have hpos : 0 < 2 * unitsPerOne := Nat.mul_pos Nat.two_pos unitsPerOne_pos
  rw [roundedMantissa, hden, Number.lt_roundHalfEven_iff (Nat.mul_pos (Nat.two_pow_pos _) hpos) (by decide),
    htwice, ← Nat.mul_assoc, ← overflow_eq, Nat.mul_le_mul_right_iff hpos]

/-- A number reaches the overflow by its bit length, or by a carry out of the largest mantissa. -/
theorem overflow_le_iff :
    overflow ≤ n ↔ 1023 < n.log2 ∨ n.log2 = 1023 ∧ maxMantissa < roundedMantissa n := by
  rcases Nat.lt_trichotomy n.log2 1023 with hlt | heq | hgt
  · have hsmall := lt_overflow_of_lt hlt
    constructor
    · intro h
      exact absurd h (Nat.not_le.mpr hsmall)
    · omega
  · rw [overflow_le_iff_of_eq heq]
    constructor
    · exact fun h => .inr ⟨heq, h⟩
    · rintro (h | ⟨_, h⟩)
      · omega
      · exact h
  · exact ⟨fun _ => .inl hgt, fun _ => overflow_le_of_lt hgt⟩

end Whole

theorem ofInt?_eq_none_iff {n : Int} : ofInt? n = none ↔ overflow ≤ n.natAbs := by
  by_cases hn : n.natAbs = 0
  · obtain rfl := Int.natAbs_eq_zero.mp hn
    decide +kernel
  · rw [ofInt?, bounded?_eq_none_iff, overflow_le_iff]
    constructor
    · rintro ⟨sign, hsign⟩
      exact ((ofRatio_eq_infinite_iff hn).mp hsign).1
    · intro h
      exact ⟨_, (ofRatio_eq_infinite_iff hn).mpr ⟨h, rfl⟩⟩

end Double

end BranchingStory
