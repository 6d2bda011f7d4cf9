import Phrasebook.Proofs.Number.Range

/-!
The integers that are binary numbers. They are those that have at most 53 bits from the first one
that is set to the last, and are below 2¹⁰²⁴. Such an integer is its own nearest number; what any
other integer is taken for is another integer or an infinity, never a fraction.
-/
namespace Phrasebook

/-- The bits of a natural number, from the first one that is set to the last, are at most 53. -/
def FewBits (n : Nat) : Prop := ∃ k < 2 ^ 53, ∃ e, n = k * 2 ^ e

namespace FewBits

theorem of_lt {n : Nat} (h : n < 2 ^ 53) : FewBits n := ⟨n, h, 0, by simp⟩

theorem mul_pow {n : Nat} (h : FewBits n) (j : Nat) : FewBits (n * 2 ^ j) := by
  obtain ⟨k, hk, e, rfl⟩ := h
  exact ⟨k, hk, e + j, by rw [Nat.mul_assoc, ← Nat.pow_add]⟩

theorem of_mul_pow {n j : Nat} (h : FewBits (n * 2 ^ j)) : FewBits n := by
  obtain ⟨k, hk, e, heq⟩ := h
  rcases Nat.le_total j e with hle | hle
  · obtain ⟨d, rfl⟩ := Nat.exists_eq_add_of_le hle
    refine ⟨k, hk, d, Nat.eq_of_mul_eq_mul_right (Nat.two_pow_pos j) ?_⟩
    rw [heq, Nat.mul_assoc, ← Nat.pow_add, Nat.add_comm d]
  · obtain ⟨d, rfl⟩ := Nat.exists_eq_add_of_le hle
    -- all bits of the number are among the few, so the number is small itself
    have hkd : n * 2 ^ d = k := by
      refine Nat.eq_of_mul_eq_mul_right (Nat.two_pow_pos e) ?_
      rw [Nat.mul_assoc, ← Nat.pow_add, Nat.add_comm d, heq]
    refine of_lt (Nat.lt_of_le_of_lt ?_ hk)
    rw [← hkd]
    exact Nat.le_mul_of_pos_right n (Nat.two_pow_pos d)

end FewBits

theorem significant_one (n : Nat) :
    significant n 1 = roundHalfEven n (lastPlace n) * lastPlace n := by
  rw [significant, Nat.div_one, Nat.one_mul]

theorem significant_of_dvd {n : Nat} (h : lastPlace n ∣ n) : significant n 1 = n := by
  have hmul : n / lastPlace n * lastPlace n = n := Nat.div_mul_cancel h
  have hround := roundHalfEven_mul (n / lastPlace n) (lastPlace_pos n)
  rw [hmul] at hround
  rw [significant_one, hround, hmul]

theorem exists_lastPlace (n : Nat) : ∃ j, lastPlace n = 2 ^ j ∧ n < 2 ^ (j + 53) := by
  refine ⟨_, rfl, Nat.lt_of_lt_of_le Nat.lt_log2_self ?_⟩
  exact Nat.pow_le_pow_right (by decide) (by omega)

/-- A rounded number has few bits. If rounding carries to the next power of two, it has one. -/
theorem fewBits_significant (n : Nat) : FewBits (significant n 1) := by
  obtain ⟨j, hplace, hlt⟩ := exists_lastPlace n
  have hquotient : n / 2 ^ j < 2 ^ 53 := by
    rw [Nat.div_lt_iff_lt_mul (Nat.two_pow_pos j), ← Nat.pow_add, Nat.add_comm 53]
    exact hlt
  have hround := roundHalfEven_eq_or n (2 ^ j)
  rw [significant_one, hplace]
  rcases Nat.lt_or_eq_of_le (show roundHalfEven n (2 ^ j) ≤ 2 ^ 53 by omega) with hfew | hcarry
  · exact ⟨_, hfew, j, rfl⟩
  · exact ⟨1, by decide, 53 + j, by rw [hcarry, Nat.one_mul, Nat.pow_add]⟩

/-- Rounding changes nothing where there are few bits already. -/
theorem significant_of_fewBits {n : Nat} (h : FewBits n) : significant n 1 = n := by
  obtain ⟨k, hk, e, rfl⟩ := h
  have hbound : k * 2 ^ e < 2 ^ (e + 53) := by
    rw [Nat.pow_add, Nat.mul_comm]
    exact (Nat.mul_lt_mul_left (Nat.two_pow_pos e)).2 hk
  exact significant_of_dvd (Nat.dvd_trans (lastPlace_dvd hbound) (Nat.dvd_mul_left _ _))

/-- A multiple of a power of two is rounded to one. -/
theorem dvd_significant (n i : Nat) : 2 ^ i ∣ significant (n * 2 ^ i) 1 := by
  obtain ⟨j, hplace, -⟩ := exists_lastPlace (n * 2 ^ i)
  rcases Nat.le_total i j with hcoarse | hfine
  · rw [significant_one, hplace]
    exact Nat.dvd_trans (Nat.pow_dvd_pow 2 hcoarse) (Nat.dvd_mul_left _ _)
  · have hdvd : lastPlace (n * 2 ^ i) ∣ n * 2 ^ i := by
      rw [hplace]
      exact Nat.dvd_trans (Nat.pow_dvd_pow 2 hfine) (Nat.dvd_mul_left _ _)
    rw [significant_of_dvd hdvd]
    exact Nat.dvd_mul_left _ _

namespace Binary64

def nearest (n : Int) : Binary64 := ofScientific (decide (n < 0)) n.natAbs 0

@[irreducible] def limit : Nat := Nat.pow 2 1024

/-- An integer is a binary number. -/
def IsExact (n : Int) : Prop := FewBits n.natAbs ∧ n.natAbs < limit

theorem unitsLimit_eq : unitsLimit = limit * unitsPerOne := by
  decide +kernel

theorem exists_unitsPerOne : ∃ j, unitsPerOne = 2 ^ j := ⟨1074, by decide +kernel⟩

/-- Up to 2⁵³ all integers are binary numbers. -/
theorem isExact_of_natAbs_le {n : Int} (h : n.natAbs ≤ 2 ^ 53) : IsExact n := by
  refine ⟨?_, Nat.lt_of_le_of_lt h (by decide +kernel)⟩
  rcases Nat.lt_or_eq_of_le h with hlt | heq
  · exact .of_lt hlt
  · exact ⟨1, by decide, 53, by rw [heq, Nat.one_mul]⟩

/-- For a natural number the shortcuts make no difference. -/
theorem ofScientific_natural (negative : Bool) (n : Nat) :
    ofScientific negative n 0 = ofRatio negative n 1 := by
  have hfinite := ofScientific_isFinite_iff negative n 0
  have hratio := ofRatio_isFinite_iff negative n Nat.one_pos
  rcases ofScientific_cases negative n 0 with ⟨hsmall, heq⟩ | ⟨-, heq⟩ | heq
  · obtain rfl : n = 0 := by omega
    have hzero : significant (0 * unitsPerOne) 1 = 0 := by
      rw [Nat.zero_mul]
      exact significant_of_fewBits (.of_lt (by decide))
    rw [heq, ofRatio_eq, hzero, if_pos]
    decide +kernel
  · have hover : ¬ n < overflow * 1 := by
      rw [heq] at hfinite
      simpa [isFinite] using hfinite
    rw [heq]
    rw [ofRatio_eq] at hratio ⊢
    split at hratio
    · exact absurd (hratio.1 rfl) hover
    · next hlimit => rw [if_neg hlimit]
  · simpa using heq

theorem point_finite_mul (negative : Bool) (n : Nat) :
    (finite negative (n * unitsPerOne)).point = .ofInt (if negative then -n else n) := by
  cases negative with
  | false => simp [point, Point.ofInt]
  | true => simp [point, Point.ofInt]

theorem point_nearest_of_isExact {n : Int} (h : IsExact n) :
    (nearest n).point = .ofInt n := by
  obtain ⟨hbits, hlimit⟩ := h
  obtain ⟨j, hunits⟩ := exists_unitsPerOne
  have hround : significant (n.natAbs * unitsPerOne) 1 = n.natAbs * unitsPerOne := by
    rw [hunits]
    exact significant_of_fewBits (hbits.mul_pow j)
  have hrange : n.natAbs * unitsPerOne < unitsLimit := by
    rw [unitsLimit_eq]
    exact (Nat.mul_lt_mul_right Point.unitsPerOne_pos).2 hlimit
  rw [nearest, ofScientific_natural, ofRatio_eq, hround, if_pos hrange, point_finite_mul]
  by_cases hneg : n < 0
  · rw [if_pos (decide_eq_true hneg)]
    congr 1
    omega
  · rw [if_neg (by simpa using hneg)]
    congr 1
    omega

/-- The number next to an integer is the infinity of its sign, or a whole number of this sign that
is a binary number. Rounding keeps to the side of 2⁵³, which is a binary number itself. -/
theorem nearest_cases (n : Int) :
    nearest n = infinite (decide (n < 0)) ∨
      ∃ m : Nat, nearest n = finite (decide (n < 0)) (m * unitsPerOne) ∧ IsExact m ∧
        (2 ^ 53 ≤ n.natAbs → 2 ^ 53 ≤ m) := by
  obtain ⟨j, hunits⟩ := exists_unitsPerOne
  rw [nearest, ofScientific_natural, ofRatio_eq]
  split
  · next hrange =>
    obtain ⟨m, hm⟩ : ∃ m, significant (n.natAbs * unitsPerOne) 1 = m * unitsPerOne := by
      rw [hunits]
      exact exists_eq_mul_left_of_dvd (dvd_significant n.natAbs j)
    have hbits : FewBits m := by
      have hrounded := fewBits_significant (n.natAbs * unitsPerOne)
      rw [hm, hunits] at hrounded
      exact hrounded.of_mul_pow
    have hlimit : m < limit := by
      rw [hm, unitsLimit_eq] at hrange
      exact Nat.lt_of_mul_lt_mul_right hrange
    refine Or.inr ⟨m, by rw [hm], ⟨hbits, hlimit⟩, fun hlarge => ?_⟩
    have hexact : 2 ^ (j + 1 + 52) * 1 ≤ n.natAbs * unitsPerOne := by
      rw [hunits, Nat.mul_one, Nat.add_assoc, Nat.pow_add, Nat.mul_comm]
      exact Nat.mul_le_mul_right _ hlarge
    have hrounded := le_significant_of_le Nat.one_pos hexact
    rw [hm, hunits, Nat.add_assoc, Nat.pow_add, Nat.mul_comm] at hrounded
    exact Nat.le_of_mul_le_mul_right hrounded (Nat.two_pow_pos j)
  · exact Or.inl rfl

/-- An integer is taken for an infinity or for an integer that is a binary number. -/
theorem point_nearest_cases (n : Int) :
    (nearest n).point = .negInfinity ∨ (nearest n).point = .posInfinity ∨
      ∃ m, IsExact m ∧ (nearest n).point = .ofInt m := by
  rcases nearest_cases n with heq | ⟨m, heq, hexact, -⟩
  · rw [heq]
    cases decide (n < 0) with
    | false => exact Or.inr (Or.inl rfl)
    | true => exact Or.inl rfl
  · rw [heq, point_finite_mul]
    refine Or.inr (Or.inr ⟨_, ?_, rfl⟩)
    split
    · simpa [IsExact] using hexact
    · exact hexact

theorem ofInt_injective {n m : Int} (h : Point.ofInt n = .ofInt m) : n = m := by
  have hunits := Point.unitsPerOne_pos
  exact Int.eq_of_mul_eq_mul_right (by omega) (Point.finite.inj h)

theorem isExact_of_point_nearest {n m : Int} (h : (nearest n).point = .ofInt m) :
    IsExact m := by
  rcases point_nearest_cases n with hinfinite | hinfinite | ⟨k, hexact, hpoint⟩
  · rw [hinfinite] at h
    cases h
  · rw [hinfinite] at h
    cases h
  · rw [hpoint] at h
    rwa [← ofInt_injective h]

/-- An integer is its own nearest number if and only if it is a binary number. -/
theorem point_nearest_eq_iff (n : Int) : (nearest n).point = .ofInt n ↔ IsExact n :=
  ⟨isExact_of_point_nearest, point_nearest_of_isExact⟩

end Binary64
end Phrasebook
