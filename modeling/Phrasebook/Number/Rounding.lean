import Phrasebook.Text.Basic

/-!
Rounding a quotient of natural numbers to the nearest whole number, a half going to the even
neighbour, and the digits of decimal numerals.
-/
namespace Phrasebook

/-- `num / den` rounded to the nearest natural number, a half to the even one. -/
def roundHalfEven (num den : Nat) : Nat :=
  let quotient := num / den
  let remainder := num % den
  if 2 * remainder < den ∨ (2 * remainder = den ∧ quotient % 2 = 0) then quotient
  else quotient + 1

theorem roundHalfEven_mul (n : Nat) {den : Nat} (h : 0 < den) :
    roundHalfEven (n * den) den = n := by
  simp [roundHalfEven, h]

/-- The rounded quotient is no further from the quotient than a half. -/
theorem two_mul_roundHalfEven (num : Nat) {den : Nat} (h : 0 < den) :
    2 * num ≤ 2 * (roundHalfEven num den * den) + den ∧
      2 * (roundHalfEven num den * den) ≤ 2 * num + den := by
  have hdiv := Nat.div_add_mod num den
  have hmod := Nat.mod_lt num h
  have hcomm : den * (num / den) = num / den * den := Nat.mul_comm ..
  unfold roundHalfEven
  dsimp only
  split
  · omega
  · rw [Nat.add_mul, Nat.one_mul]
    omega

def digitCount (n : Nat) : Nat := (Text.ofNat n).length

theorem digitCount_le_iff {limit : Nat} (h : 0 < limit) (n : Nat) :
    digitCount n ≤ limit ↔ n < Nat.pow 10 limit :=
  Nat.length_toDigits_le_iff (by decide) h

/-- A coefficient with its trailing zeros moved into the exponent, at most `limit` of them. -/
def stripZeros : Nat → Nat → Int → Nat × Int
  | 0, coefficient, exponent => (coefficient, exponent)
  | limit + 1, coefficient, exponent =>
    if coefficient % 10 = 0 then stripZeros limit (coefficient / 10) (exponent + 1)
    else (coefficient, exponent)

end Phrasebook
