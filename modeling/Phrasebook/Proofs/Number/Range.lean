import Mathlib.Tactic.Ring
import Phrasebook.Number.Decimal

/-!
The range of the binary numbers, as it is for decimals. A finite number has 53 bits at most and is
below 2¹⁰²⁴. What is half a last place below 2¹⁰²⁴, or more, is rounded up to it and so out of
range; what is less is rounded to a finite number. The last place there is 2⁹⁷¹.
-/
namespace Phrasebook

theorem roundHalfEven_eq_or (num den : Nat) :
    roundHalfEven num den = num / den ∨ roundHalfEven num den = num / den + 1 := by
  unfold roundHalfEven
  dsimp only
  split
  · exact Or.inl rfl
  · exact Or.inr rfl

/-- What is rounded stays below an even bound if it is more than a half below. At just a half the
even neighbour is the bound itself. -/
theorem roundHalfEven_lt_iff {num den bound : Nat} (hden : 0 < den)
    (heven : bound % 2 = 0) :
    roundHalfEven num den < bound ↔ 2 * num + den < 2 * (bound * den) := by
  have hdiv := Nat.div_add_mod' num den
  have hmod := Nat.mod_lt num hden
  have hround := roundHalfEven_eq_or num den
  rcases Nat.lt_trichotomy (num / den + 1) bound with hbelow | hnext | habove
  · have hmul : (num / den + 2) * den ≤ bound * den := Nat.mul_le_mul_right den hbelow
    rw [Nat.add_mul] at hmul
    constructor <;> omega
  · have hmul : bound * den = num / den * den + den := by
      rw [← hnext, Nat.add_mul, Nat.one_mul]
    unfold roundHalfEven
    dsimp only
    split <;> omega
  · have hmul : bound * den ≤ num / den * den := Nat.mul_le_mul_right den (by omega)
    constructor <;> omega

/-- The worth of the last of the 53 bits that begin at the leading bit of a number. Numbers of
fewer bits are whole numbers as they are. -/
def lastPlace (n : Nat) : Nat := 2 ^ (Nat.log2 n + 1 - 53)

def significant (exact den : Nat) : Nat :=
  roundHalfEven exact (den * lastPlace (exact / den)) * lastPlace (exact / den)

theorem lastPlace_pos (n : Nat) : 0 < lastPlace n := Nat.two_pow_pos _

theorem lastPlace_dvd {n k : Nat} (h : n < 2 ^ (k + 53)) : lastPlace n ∣ 2 ^ k := by
  refine Nat.pow_dvd_pow 2 ?_
  by_cases hzero : n = 0
  · subst hzero
    simp
  · have hlog := (Nat.log2_lt hzero).2 h
    omega

theorem lastPlace_le {n k : Nat} (h : n < 2 ^ (k + 53)) : lastPlace n ≤ 2 ^ k :=
  Nat.le_of_dvd (Nat.two_pow_pos k) (lastPlace_dvd h)

theorem lastPlace_eq {n k : Nat} (hlow : 2 ^ (k + 52) ≤ n) (hhigh : n < 2 ^ (k + 53)) :
    lastPlace n = 2 ^ k := by
  have hpos : 0 < 2 ^ (k + 52) := Nat.two_pow_pos _
  have hlog : Nat.log2 n = k + 52 := (Nat.log2_eq_iff (by omega)).2 ⟨hlow, hhigh⟩
  rw [lastPlace, hlog]
  congr 1

section Bounds

variable {exact den k : Nat} (hden : 0 < den)

include hden

/-- Below half a power of two the rounding is far too fine to reach it. -/
theorem significant_lt_of_lt (h : exact < 2 ^ (k + 53) * den) :
    significant exact den < 2 ^ (k + 54) := by
  have hquotient : exact / den < 2 ^ (k + 53) := (Nat.div_lt_iff_lt_mul hden).2 h
  have hplace := lastPlace_le hquotient
  have hround := (two_mul_roundHalfEven exact (Nat.mul_pos hden (lastPlace_pos (exact / den)))).2
  have hunits : 2 * (significant exact den * den) ≤ 2 * exact + den * 2 ^ k := by
    have hmul := Nat.mul_le_mul_left den hplace
    have hcomm : significant exact den * den = roundHalfEven exact
        (den * lastPlace (exact / den)) * (den * lastPlace (exact / den)) := by
      unfold significant
      ring
    omega
  have hpow : 2 ^ (k + 54) * den = 2 * (2 ^ (k + 53) * den) := by ring
  have hsmall : den * 2 ^ k ≤ 2 ^ (k + 53) * den := by
    rw [Nat.mul_comm]
    exact Nat.mul_le_mul_right den (Nat.pow_le_pow_right (by decide) (by omega))
  refine Nat.lt_of_mul_lt_mul_right (a := den) ?_
  omega

/-- A power of two is a multiple of every last place at or above it, so rounding keeps to its
side. -/
theorem le_significant_of_le (h : 2 ^ (k + 52) * den ≤ exact) :
    2 ^ (k + 52) ≤ significant exact den := by
  have hquotient : 2 ^ (k + 52) ≤ exact / den := (Nat.le_div_iff_mul_le hden).2 h
  have hpos : 0 < 2 ^ (k + 52) := Nat.two_pow_pos _
  have hne : exact / den ≠ 0 := by omega
  have hlog : k + 52 ≤ Nat.log2 (exact / den) := (Nat.le_log2 hne).2 hquotient
  obtain ⟨j, hj⟩ : ∃ j, Nat.log2 (exact / den) = j + 52 :=
    ⟨Nat.log2 (exact / den) - 52, by omega⟩
  obtain ⟨hlow, hhigh⟩ := (Nat.log2_eq_iff hne).1 hj
  have hplace : lastPlace (exact / den) = 2 ^ j := lastPlace_eq hlow hhigh
  have hleading : 2 ^ 52 ≤ exact / (den * 2 ^ j) := by
    refine (Nat.le_div_iff_mul_le (Nat.mul_pos hden (Nat.two_pow_pos j))).2 ?_
    calc 2 ^ 52 * (den * 2 ^ j) = 2 ^ (j + 52) * den := by ring
      _ ≤ exact / den * den := Nat.mul_le_mul_right den hlow
      _ ≤ exact := Nat.div_mul_le_self exact den
  have hround := roundHalfEven_eq_or exact (den * 2 ^ j)
  calc 2 ^ (k + 52) ≤ 2 ^ (j + 52) := Nat.pow_le_pow_right (by decide) (by omega)
    _ = 2 ^ 52 * 2 ^ j := by ring
    _ ≤ roundHalfEven exact (den * 2 ^ j) * 2 ^ j := Nat.mul_le_mul_right _ (by omega)
    _ = significant exact den := by rw [significant, hplace]

/-- Between half a power of two and the power the last place is always the same. -/
theorem significant_lt_iff_of_leading (hlow : 2 ^ (k + 53) * den ≤ exact)
    (hhigh : exact < 2 ^ (k + 54) * den) :
    significant exact den < 2 ^ (k + 54) ↔ exact + 2 ^ k * den < 2 ^ (k + 54) * den := by
  have hplace : lastPlace (exact / den) = 2 ^ (k + 1) :=
    lastPlace_eq ((Nat.le_div_iff_mul_le hden).2 (by rwa [Nat.add_right_comm]))
      ((Nat.div_lt_iff_lt_mul hden).2 (by rwa [Nat.add_right_comm]))
  have hlimit : 2 ^ (k + 54) = 2 ^ 53 * 2 ^ (k + 1) := by ring
  have hdouble : 2 ^ 53 * (den * 2 ^ (k + 1)) = 2 ^ (k + 54) * den := by ring
  have hhalf : den * 2 ^ (k + 1) = 2 * (2 ^ k * den) := by ring
  rw [significant, hplace, hlimit, Nat.mul_lt_mul_right (Nat.two_pow_pos (k + 1)),
    roundHalfEven_lt_iff (Nat.mul_pos hden (Nat.two_pow_pos (k + 1))) (by decide), ← hlimit,
    hdouble, hhalf]
  omega

/-- Rounding to 53 bits stays below a power of two if and only if there is more than half a last
place up to it. -/
theorem significant_lt_iff :
    significant exact den < 2 ^ (k + 54) ↔ exact + 2 ^ k * den < 2 ^ (k + 54) * den := by
  have hpow : 2 ^ (k + 54) * den = 2 * (2 ^ (k + 53) * den) := by ring
  have hpart : 2 ^ k * den ≤ 2 ^ (k + 53) * den :=
    Nat.mul_le_mul_right den (Nat.pow_le_pow_right (by decide) (by omega))
  by_cases hlow : exact < 2 ^ (k + 53) * den
  · have hbelow := significant_lt_of_lt hden hlow
    constructor <;> intro _ <;> omega
  by_cases hhigh : exact < 2 ^ (k + 54) * den
  · exact significant_lt_iff_of_leading hden (Nat.le_of_not_lt hlow) hhigh
  · have habove : 2 ^ (k + 54) ≤ significant exact den :=
      le_significant_of_le hden (k := k + 2) (Nat.le_of_not_lt hhigh)
    constructor <;> intro _ <;> omega

end Bounds

theorem lt_pow_digitCount (n : Nat) : n < 10 ^ digitCount n :=
  (Nat.length_toDigits_le_iff (by decide) Nat.length_toDigits_pos).1 (Nat.le_refl _)

theorem pow_digitCount_le {n : Nat} (h : n ≠ 0) : 10 ^ (digitCount n - 1) ≤ n := by
  by_contra hlt
  by_cases hone : digitCount n - 1 = 0
  · rw [hone] at hlt
    omega
  · have hfewer : digitCount n ≤ digitCount n - 1 :=
      (Nat.length_toDigits_le_iff (by decide) (Nat.pos_of_ne_zero hone)).2 (Nat.lt_of_not_le hlt)
    omega

namespace Binary64

/-- The least quantity that is out of range, 2¹⁰²⁴ less half a last place. -/
@[irreducible] def overflow : Nat := Nat.pow 2 1024 - Nat.pow 2 970

@[irreducible] def halfPlace : Nat := Nat.pow 2 2044

theorem overflow_units : overflow * unitsPerOne + halfPlace = unitsLimit := by
  decide +kernel

theorem significant_lt_unitsLimit_iff {exact den : Nat} (hden : 0 < den) :
    significant exact den < unitsLimit ↔ exact + halfPlace * den < unitsLimit * den := by
  obtain ⟨k, hlimit, hhalf⟩ : ∃ k, unitsLimit = 2 ^ (k + 54) ∧ halfPlace = 2 ^ k :=
    ⟨2044, by decide +kernel, by decide +kernel⟩
  rw [hlimit, hhalf]
  exact significant_lt_iff hden

theorem overflow_pos : 0 < overflow := by
  decide +kernel

theorem overflow_le_pow {k : Nat} (h : 400 ≤ k) : overflow ≤ 10 ^ k := by
  obtain ⟨n, hn, hlimit⟩ : ∃ n ≤ 400, overflow ≤ 10 ^ n :=
    ⟨400, Nat.le_refl 400, by decide +kernel⟩
  exact Nat.le_trans hlimit (Nat.pow_le_pow_right (by decide) (Nat.le_trans hn h))

theorem ofRatio_eq (negative : Bool) (num den : Nat) :
    ofRatio negative num den =
      if significant (num * unitsPerOne) den < unitsLimit then
        finite negative (significant (num * unitsPerOne) den)
      else infinite negative := rfl

theorem ofRatio_isFinite_iff (negative : Bool) (num : Nat) {den : Nat} (hden : 0 < den) :
    (ofRatio negative num den).isFinite ↔ num < overflow * den := by
  have hlimit : unitsLimit * den = overflow * den * unitsPerOne + halfPlace * den := by
    rw [← overflow_units]
    ring
  have hfinite : (ofRatio negative num den).isFinite ↔
      significant (num * unitsPerOne) den < unitsLimit := by
    rw [ofRatio_eq]
    split <;> simp_all [isFinite]
  rw [hfinite, significant_lt_unitsLimit_iff hden, hlimit, Nat.add_lt_add_iff_right,
    Nat.mul_lt_mul_right Point.unitsPerOne_pos]

/-- A decimal out of the lower range is below one, so it is not too large either. -/
theorem lt_overflow_of_small {coefficient : Nat} {exponent : Int}
    (h : digitCount coefficient + exponent < -400) :
    coefficient * 10 ^ exponent.toNat < overflow * 10 ^ (-exponent).toNat := by
  have hnegative : exponent.toNat = 0 := by omega
  have hdigits := lt_pow_digitCount coefficient
  have hpow : 10 ^ digitCount coefficient ≤ 10 ^ (-exponent).toNat :=
    Nat.pow_le_pow_right (by decide) (by omega)
  have hoverflow := Nat.mul_le_mul_right (10 ^ (-exponent).toNat) overflow_pos
  rw [hnegative, Nat.pow_zero, Nat.mul_one]
  omega

theorem overflow_le_of_large {coefficient : Nat} {exponent : Int} (hne : coefficient ≠ 0)
    (h : 400 < digitCount coefficient + exponent) :
    overflow * 10 ^ (-exponent).toNat ≤ coefficient * 10 ^ exponent.toNat := by
  have hdigits := pow_digitCount_le hne
  obtain ⟨k, hk⟩ : ∃ k, digitCount coefficient - 1 + exponent.toNat = k + (-exponent).toNat :=
    ⟨digitCount coefficient - 1 + exponent.toNat - (-exponent).toNat, by omega⟩
  calc overflow * 10 ^ (-exponent).toNat ≤ 10 ^ k * 10 ^ (-exponent).toNat :=
        Nat.mul_le_mul_right _ (overflow_le_pow (by omega))
    _ = 10 ^ (digitCount coefficient - 1) * 10 ^ exponent.toNat := by
        rw [← Nat.pow_add, ← Nat.pow_add, hk]
    _ ≤ coefficient * 10 ^ exponent.toNat := Nat.mul_le_mul_right _ hdigits

/-- The ways in which the number next to a decimal is found. -/
theorem ofScientific_cases (negative : Bool) (coefficient : Nat) (exponent : Int) :
    (coefficient = 0 ∨ digitCount coefficient + exponent < -400) ∧
        ofScientific negative coefficient exponent = finite negative 0 ∨
      (coefficient ≠ 0 ∧ 400 < digitCount coefficient + exponent) ∧
        ofScientific negative coefficient exponent = infinite negative ∨
      ofScientific negative coefficient exponent =
        ofRatio negative (coefficient * 10 ^ exponent.toNat) (10 ^ (-exponent).toNat) := by
  unfold ofScientific
  by_cases hsmall : coefficient = 0 ∨ digitCount coefficient + exponent < -400
  · exact Or.inl ⟨hsmall, if_pos hsmall⟩
  · have hne : coefficient ≠ 0 := fun hzero => hsmall (Or.inl hzero)
    by_cases hlarge : 400 < digitCount coefficient + exponent
    · exact Or.inr (Or.inl ⟨⟨hne, hlarge⟩, by simp only [if_neg hsmall, if_pos hlarge]⟩)
    · refine Or.inr (Or.inr ?_)
      simp only [if_neg hsmall, if_neg hlarge]
      by_cases hnonneg : 0 ≤ exponent
      · have hone : (-exponent).toNat = 0 := by omega
        rw [if_pos hnonneg, hone]
        rfl
      · have hone : exponent.toNat = 0 := by omega
        rw [if_neg hnonneg, hone, Nat.pow_zero, Nat.mul_one]
        rfl

/-- A decimal has a finite binary number next to it if and only if it is in range. -/
theorem ofScientific_isFinite_iff (negative : Bool) (coefficient : Nat) (exponent : Int) :
    (ofScientific negative coefficient exponent).isFinite ↔
      coefficient * 10 ^ exponent.toNat < overflow * 10 ^ (-exponent).toNat := by
  have hten : 0 < 10 ^ (-exponent).toNat := Nat.pow_pos (by decide)
  rcases ofScientific_cases negative coefficient exponent with
    ⟨hsmall, heq⟩ | ⟨⟨hne, hlarge⟩, heq⟩ | heq
  · rw [heq]
    refine iff_of_true rfl ?_
    rcases hsmall with rfl | hsmall
    · rw [Nat.zero_mul]
      exact Nat.mul_pos overflow_pos hten
    · exact lt_overflow_of_small hsmall
  · rw [heq]
    exact iff_of_false Bool.false_ne_true (Nat.not_lt.2 (overflow_le_of_large hne hlarge))
  · rw [heq]
    exact ofRatio_isFinite_iff negative _ hten

/-- A decimal that has no finite binary number next to it has the infinity of its sign. -/
theorem ofScientific_eq_infinite {negative : Bool} {coefficient : Nat} {exponent : Int}
    (h : ¬ (ofScientific negative coefficient exponent).isFinite) :
    ofScientific negative coefficient exponent = infinite negative := by
  rcases ofScientific_cases negative coefficient exponent with ⟨-, heq⟩ | ⟨-, heq⟩ | heq
  · rw [heq] at h
    exact absurd rfl h
  · exact heq
  · rw [heq, ofRatio_eq] at h ⊢
    split at h
    · exact absurd rfl h
    · next hlimit => exact if_neg hlimit

end Binary64
end Phrasebook
