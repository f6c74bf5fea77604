/-!
# Rounding a quotient

Decimal input, decimal output and the conversion of integers all reduce to one question: which
natural number is nearest to a quotient of two natural numbers. A tie goes to the even neighbour.
-/

namespace BranchingStory
namespace Number

/-- The natural number nearest to `num / den`; a half goes to the even neighbour. -/
def roundHalfEven (num den : Nat) : Nat :=
  let whole := num / den
  let twice := 2 * (num % den)
  if twice < den then whole
  else if den < twice then whole + 1
  else if whole % 2 = 0 then whole
  else whole + 1

theorem div_le_roundHalfEven (num den : Nat) : num / den ≤ roundHalfEven num den := by
  unfold roundHalfEven
  dsimp only
  split
  · omega
  · split
    · omega
    · split <;> omega

theorem roundHalfEven_le (num den : Nat) : roundHalfEven num den ≤ num / den + 1 := by
  unfold roundHalfEven
  dsimp only
  split
  · omega
  · split
    · omega
    · split <;> omega

@[simp] theorem roundHalfEven_mul_right (n : Nat) {den : Nat} (h : 0 < den) :
    roundHalfEven (n * den) den = n := by
  simp [roundHalfEven, Nat.mul_div_cancel _ h, h]

/-- The least natural number of more than `n` decimal digits. -/
def powerOfTen (n : Nat) : Nat := Nat.pow 10 n

@[simp] theorem powerOfTen_zero : powerOfTen 0 = 1 := rfl

theorem powerOfTen_succ (n : Nat) : powerOfTen (n + 1) = 10 * powerOfTen n := Nat.pow_succ'

theorem powerOfTen_le {m n : Nat} (h : m ≤ n) : powerOfTen m ≤ powerOfTen n := Nat.pow_le_pow_right (by decide) h

theorem one_lt_powerOfTen {n : Nat} (h : n ≠ 0) : 1 < powerOfTen n := Nat.one_lt_pow h (by decide)

/-- How many decimal digits a natural number is written with; zero has one. -/
def digitCount (n : Nat) : Nat := (Nat.toDigits 10 n).length

end Number
end BranchingStory
