import Mathlib.Algebra.Order.Field.Power
import Mathlib.Data.Nat.Cast.Order.Field
import Mathlib.Data.Rat.Cast.Order
import Mathlib.Tactic.FieldSimp
import Mathlib.Tactic.NormNum
import Mathlib.Tactic.Positivity
import Phrasebook.Number.Arithmetic
import Phrasebook.Proofs.Number.Range

/-!
Quotients of decimals that lose nothing. A result has at most as many digits as the precision
allows, and its exponents are bounded; a quotient is exact if and only if there is a result that
equals it. Of a number of units that is divided by a power of ten the digits that count are those
in front of the zeros at its end.
-/
namespace Phrasebook.Decimal

def scaled (coefficient : Nat) (exponent : Int) : ℚ := coefficient * 10 ^ exponent

def rational? : Decimal → Option ℚ
  | finite negative coefficient exponent =>
    some (if negative then -scaled coefficient exponent else scaled coefficient exponent)
  | _ => none

section Scaled

variable {c m : Nat} {e p : Int}

theorem scaled_mul_pow (c n : Nat) (e : Int) : scaled (c * 10 ^ n) e = scaled c (e + n) := by
  rw [scaled, scaled, zpow_add₀ (by decide), zpow_natCast]
  push_cast
  ring

theorem scaled_pos (h : c ≠ 0) : 0 < scaled c e :=
  mul_pos (Nat.cast_pos.2 (Nat.pos_of_ne_zero h)) (zpow_pos (by decide) e)

theorem scaled_eq_zero_iff : scaled c e = 0 ↔ c = 0 := by
  constructor
  · intro h
    by_contra hne
    exact (scaled_pos hne).ne' h
  · rintro rfl
    simp [scaled]

/-- With the larger exponent there is the smaller coefficient. -/
theorem eq_mul_pow_of_scaled_eq (h : scaled c e = scaled m p) (hle : e ≤ p) :
    c = m * 10 ^ (p - e).toNat := by
  have hp : p = e + (p - e).toNat := by omega
  rw [hp, ← scaled_mul_pow, scaled, scaled] at h
  exact Nat.cast_injective (mul_right_cancel₀ (zpow_ne_zero e (by decide)) h)

theorem scaled_lt_of_lt {n : Nat} (h : c < 10 ^ n) (e : Int) : scaled c e < 10 ^ (n + e) := by
  have hcast : (c : ℚ) < 10 ^ n := by exact_mod_cast h
  rw [scaled, zpow_add₀ (by decide), zpow_natCast]
  exact mul_lt_mul_of_pos_right hcast (zpow_pos (by decide) e)

theorem scaled_le_of_le {n : Nat} (h : c ≤ 10 ^ n) (e : Int) : scaled c e ≤ 10 ^ (n + e) := by
  have hcast : (c : ℚ) ≤ 10 ^ n := by exact_mod_cast h
  rw [scaled, zpow_add₀ (by decide), zpow_natCast]
  exact mul_le_mul_of_nonneg_right hcast (zpow_pos (by decide) e).le

theorem scaled_lt (c : Nat) (e : Int) : scaled c e < 10 ^ (leadingExponent c e + 1) := by
  rw [leadingExponent, sub_add_cancel]
  exact scaled_lt_of_lt (lt_pow_digitCount c) e

theorem pow_le_scaled (h : c ≠ 0) (e : Int) : 10 ^ leadingExponent c e ≤ scaled c e := by
  have hdigits : 0 < digitCount c := Nat.length_toDigits_pos
  have hcast : (10 : ℚ) ^ (digitCount c - 1) ≤ c := by exact_mod_cast pow_digitCount_le h
  have hlead : leadingExponent c e = (digitCount c - 1 : Nat) + e := by
    unfold leadingExponent
    omega
  rw [hlead, zpow_add₀ (by decide), zpow_natCast, scaled]
  exact mul_le_mul_of_nonneg_right hcast (zpow_pos (by decide) e).le

/-- A bound on the number is one on its leading digit. -/
theorem leadingExponent_lt {n : Int} (hne : c ≠ 0) (h : scaled c e < 10 ^ n) :
    leadingExponent c e < n :=
  (zpow_lt_zpow_iff_right₀ (by norm_num)).1 ((pow_le_scaled hne e).trans_lt h)

end Scaled

theorem digitCount_le_iff {n k : Nat} (hk : 0 < k) : digitCount n ≤ k ↔ n < 10 ^ k :=
  Nat.length_toDigits_le_iff (by decide) hk

structure Held (coefficient : Nat) (exponent : Int) : Prop where
  few : coefficient < 10 ^ precision
  low : leastLast ≤ exponent
  high : leadingExponent coefficient exponent ≤ largestLead

section Rounding

variable {c m k : Nat} {e p q : Int}

/-- Dividing by a power of ten without a remainder moves the point. -/
theorem scaled_roundHalfEven {n : Nat} (h : 10 ^ n ∣ c) (e : Int) :
    scaled (roundHalfEven c (10 ^ n)) (e + n) = scaled c e := by
  obtain ⟨d, rfl⟩ := h
  rw [Nat.mul_comm, roundHalfEven_mul d (Nat.pow_pos (by decide)), scaled_mul_pow]

theorem roundHalfEven_le {bound den : Nat} (hden : 0 < den) (h : c < bound * den) :
    roundHalfEven c den ≤ bound := by
  have hquotient : c / den < bound := (Nat.div_lt_iff_lt_mul hden).2 h
  have hround := roundHalfEven_eq_or c den
  omega

def excess (c : Nat) : Nat := digitCount c - precision

theorem lt_pow_excess (c : Nat) : c < 10 ^ precision * 10 ^ excess c := by
  have hdigits := lt_pow_digitCount c
  rw [← Nat.pow_add]
  refine hdigits.trans_le (Nat.pow_le_pow_right (by decide) ?_)
  unfold excess
  omega

theorem roundHalfEven_excess_le (c : Nat) :
    roundHalfEven c (10 ^ excess c) ≤ 10 ^ precision :=
  roundHalfEven_le (Nat.pow_pos (by decide)) (lt_pow_excess c)

/-- Rounding leaves few digits. It drops no place where there are not too many, and where it makes
one digit more that digit is a one with zeros behind it. -/
theorem rounded_cases (c : Nat) (e : Int) :
    (c < 10 ^ precision ∧ excess c = 0 ∧ rounded c e = (c, e)) ∨
      digitCount c = precision + excess c ∧
        ((roundHalfEven c (10 ^ excess c) < 10 ^ precision ∧
          rounded c e = (roundHalfEven c (10 ^ excess c), e + excess c)) ∨
        (roundHalfEven c (10 ^ excess c) = 10 ^ precision ∧
          rounded c e = (10 ^ (precision - 1), e + excess c + 1))) := by
  have hprecision : 0 < precision := by decide
  have hunfold : rounded c e =
      if excess c = 0 then (c, e)
      else if digitCount (roundHalfEven c (10 ^ excess c)) ≤ precision then
        (roundHalfEven c (10 ^ excess c), e + excess c)
      else (roundHalfEven c (10 ^ excess c) / 10, e + excess c + 1) := rfl
  by_cases hfew : excess c = 0
  · refine Or.inl ⟨(digitCount_le_iff hprecision).1 ?_, hfew, by rw [hunfold, if_pos hfew]⟩
    unfold excess at hfew
    omega
  refine Or.inr ⟨by unfold excess at hfew ⊢; omega, ?_⟩
  by_cases hkept : digitCount (roundHalfEven c (10 ^ excess c)) ≤ precision
  · refine Or.inl ⟨(digitCount_le_iff hprecision).1 hkept, ?_⟩
    rw [hunfold, if_neg hfew, if_pos hkept]
  · have hcarry : roundHalfEven c (10 ^ excess c) = 10 ^ precision :=
      Nat.le_antisymm (roundHalfEven_excess_le c)
        (Nat.le_of_not_lt (mt (digitCount_le_iff hprecision).2 hkept))
    refine Or.inr ⟨hcarry, ?_⟩
    rw [hunfold, if_neg hfew, if_neg hkept, hcarry]
    rfl

theorem rounded_few (c : Nat) (e : Int) : (rounded c e).1 < 10 ^ precision := by
  rcases rounded_cases c e with ⟨hfew, -, heq⟩ | ⟨-, ⟨hfew, heq⟩ | ⟨-, heq⟩⟩
  · rwa [heq]
  · rwa [heq]
  · rw [heq]
    exact Nat.pow_lt_pow_right (by decide) (by decide)

theorem rounded_ne_zero (hne : c ≠ 0) (e : Int) : (rounded c e).1 ≠ 0 := by
  rcases rounded_cases c e with ⟨-, -, heq⟩ | ⟨hdigits, ⟨-, heq⟩ | ⟨-, heq⟩⟩
  · rwa [heq]
  · have hlarge : 10 ^ excess c ≤ c := by
      have hprecision : 0 < precision := by decide
      exact (Nat.pow_le_pow_right (by decide) (by omega)).trans (pow_digitCount_le hne)
    have hquotient : 0 < c / 10 ^ excess c := Nat.div_pos hlarge (Nat.pow_pos (by decide))
    have hround := roundHalfEven_eq_or c (10 ^ excess c)
    rw [heq]
    dsimp only
    omega
  · rw [heq]
    exact (Nat.pow_pos (by decide)).ne'

theorem le_rounded (c : Nat) (e : Int) : e + excess c ≤ (rounded c e).2 := by
  rcases rounded_cases c e with ⟨-, hnone, heq⟩ | ⟨-, ⟨-, heq⟩ | ⟨-, heq⟩⟩ <;> rw [heq]
  · simp [hnone]
  · exact Int.le_add_of_nonneg_right (by decide)

/-- A carry to a new leading digit moves the point. -/
theorem scaled_carry (e : Int) :
    scaled (10 ^ (precision - 1)) (e + 1) = scaled (10 ^ precision) e :=
  (scaled_mul_pow _ 1 e).symm

theorem scaled_rounded (h : 10 ^ excess c ∣ c) (e : Int) :
    scaled (rounded c e).1 (rounded c e).2 = scaled c e := by
  rcases rounded_cases c e with ⟨-, -, heq⟩ | ⟨-, ⟨-, heq⟩ | ⟨hcarry, heq⟩⟩
  · rw [heq]
  · rw [heq, scaled_roundHalfEven h]
  · rw [heq, scaled_carry, ← hcarry, scaled_roundHalfEven h]

/-- Rounding adds one place at most in front. -/
theorem scaled_rounded_le (c : Nat) (e : Int) :
    scaled (rounded c e).1 (rounded c e).2 ≤ 10 ^ (leadingExponent c e + 1) := by
  have hlead : digitCount c = precision + excess c →
      (precision : Int) + (e + excess c) = leadingExponent c e + 1 := by
    unfold leadingExponent
    omega
  have hmany := scaled_le_of_le (roundHalfEven_excess_le c) (e + excess c)
  rcases rounded_cases c e with ⟨-, -, heq⟩ | ⟨hdigits, ⟨-, heq⟩ | ⟨hcarry, heq⟩⟩
  · rw [heq]
    exact (scaled_lt c e).le
  · rwa [heq, ← hlead hdigits]
  · rwa [heq, scaled_carry, ← hcarry, ← hlead hdigits]

theorem Held.scaled_lt (h : Held k q) : scaled k q < 10 ^ (largestLead + 1) :=
  (Decimal.scaled_lt k q).trans_le (zpow_le_zpow_right₀ (by norm_num) (by have := h.high; omega))

theorem Held.of_least (hfew : k < 10 ^ precision) : Held k leastLast := by
  have hdigits := (digitCount_le_iff (by decide : 0 < precision)).2 hfew
  have hbound : (precision : Int) + leastLast - 1 ≤ largestLead := by decide
  refine ⟨hfew, Int.le_refl _, ?_⟩
  unfold leadingExponent
  omega

theorem Held.of_scaled_lt (hne : k ≠ 0) (hfew : k < 10 ^ precision) (hlow : leastLast ≤ q)
    (hlt : scaled k q < 10 ^ (largestLead + 1)) : Held k q :=
  ⟨hfew, hlow, Int.lt_add_one_iff.1 (leadingExponent_lt hne hlt)⟩

/-- All results are of this kind. -/
theorem held_of_settle (h : settle c e = .ok (k, q)) : Held k q := by
  unfold settle at h
  split at h
  · next hsmall =>
    obtain ⟨rfl, rfl⟩ := Prod.mk.inj (Except.ok.inj h)
    have hbound : c < 10 ^ (precision - 1) * 10 ^ (leastLast - e).toNat := by
      rw [← Nat.pow_add]
      refine (lt_pow_digitCount c).trans_le (Nat.pow_le_pow_right (by decide) ?_)
      have hlast : leastLast = leastLead - precision + 1 := rfl
      unfold leadingExponent at hsmall
      omega
    exact .of_least ((roundHalfEven_le (Nat.pow_pos (by decide)) hbound).trans_lt
      (Nat.pow_lt_pow_right (by decide) (by decide)))
  · next hlarge =>
    dsimp only at h
    split at h
    · cases h
    · next hlead =>
      rw [Except.ok.injEq, Prod.mk.injEq] at h
      obtain ⟨rfl, rfl⟩ := h
      refine ⟨rounded_few c e, ?_, Int.not_lt.1 hlead⟩
      have hplaces := le_rounded c e
      have hlast : leastLast = leastLead - precision + 1 := rfl
      unfold leadingExponent at hlarge
      unfold excess at hplaces
      omega

/-- What equals a result is not rounded. -/
theorem pow_excess_dvd (hfew : m < 10 ^ precision) (heq : scaled c e = scaled m p) :
    10 ^ excess c ∣ c := by
  have hprecision : 0 < precision := by decide
  rcases Int.le_total e p with hle | hle
  · obtain rfl := eq_mul_pow_of_scaled_eq heq hle
    refine Nat.dvd_trans (Nat.pow_dvd_pow 10 ?_) (Nat.dvd_mul_left _ _)
    have hdigits : digitCount (m * 10 ^ (p - e).toNat) ≤ precision + (p - e).toNat := by
      rw [digitCount_le_iff (by omega), Nat.pow_add]
      exact Nat.mul_lt_mul_of_pos_right hfew (Nat.pow_pos (by decide))
    unfold excess
    omega
  · have hcm : c ≤ m := by
      rw [eq_mul_pow_of_scaled_eq heq.symm hle]
      exact Nat.le_mul_of_pos_right c (Nat.pow_pos (by decide))
    have hdigits := (digitCount_le_iff hprecision).2 (hcm.trans_lt hfew)
    have hnone : excess c = 0 := by
      unfold excess
      omega
    rw [hnone]
    exact Nat.one_dvd c

theorem settle_of_held (hne : c ≠ 0) (h : Held m p) (heq : scaled c e = scaled m p) :
    ∃ k q, settle c e = .ok (k, q) ∧ scaled k q = scaled m p := by
  unfold settle
  split
  · next hsmall =>
    -- the places that are dropped hold zeros, since the equal result has no such places
    have hplaces : (leastLast - e).toNat ≤ (p - e).toNat := by
      have := h.low
      omega
    have hdvd : 10 ^ (leastLast - e).toNat ∣ c := by
      rw [eq_mul_pow_of_scaled_eq heq (by have := h.low; omega)]
      exact Nat.dvd_trans (Nat.pow_dvd_pow 10 hplaces) (Nat.dvd_mul_left _ _)
    have hlast : leastLast = e + (leastLast - e).toNat := by omega
    refine ⟨_, _, rfl, ?_⟩
    rw [← heq, ← scaled_roundHalfEven hdvd e, ← hlast]
    rfl
  · have hexact := (scaled_rounded (pow_excess_dvd h.few heq) e).trans heq
    have hlead : leadingExponent (rounded c e).1 (rounded c e).2 < largestLead + 1 :=
      leadingExponent_lt (rounded_ne_zero hne e) (hexact ▸ h.scaled_lt)
    exact ⟨_, _, if_neg (Int.not_lt.2 (Int.lt_add_one_iff.1 hlead)), hexact⟩

/-- What is not close to the bound is not too large when it is rounded. -/
theorem exists_settle (hne : c ≠ 0) (h : leadingExponent c e < largestLead) :
    ∃ k q, settle c e = .ok (k, q) := by
  unfold settle
  split
  · exact ⟨_, _, rfl⟩
  · have hrounded : (10 : ℚ) ^ leadingExponent (rounded c e).1 (rounded c e).2 ≤
        10 ^ (leadingExponent c e + 1) :=
      (pow_le_scaled (rounded_ne_zero hne e) _).trans (scaled_rounded_le c e)
    have hlead := (zpow_le_zpow_iff_right₀ (by norm_num)).1 hrounded
    exact ⟨_, _, if_neg (Int.not_lt.2 (hlead.trans h))⟩

end Rounding

theorem scaled_stripPlaces (limit c : Nat) (e : Int) :
    scaled (stripPlaces limit c e).1 (stripPlaces limit c e).2 = scaled c e := by
  induction limit generalizing c e with
  | zero => rfl
  | succ limit ih =>
    unfold stripPlaces
    split
    · next hzero =>
      have hdigit : c / 10 * 10 ^ 1 = c := by omega
      rw [ih]
      conv => rhs; rw [← hdigit, scaled_mul_pow]
      rfl
    · rfl

section Quotient

variable {a b m : Nat} {p : Int}

def lift (a b : Nat) : Int := digitCount b + precision + 1 - digitCount a

def liftedDividend (a b : Nat) : Nat := a * 10 ^ (lift a b).toNat

def liftedDivisor (a b : Nat) : Nat := b * 10 ^ (-lift a b).toNat

def liftedQuotient (a b : Nat) : Nat := liftedDividend a b / liftedDivisor a b

/-- A quotient with a remainder does not end in nought or five, so that rounding sees the remainder.
-/
theorem longQuotient_eq (a b : Nat) : longQuotient a b =
    if liftedDividend a b % liftedDivisor a b = 0 then
      stripPlaces (digitCount (liftedQuotient a b)) (liftedQuotient a b) (-lift a b)
    else (if liftedQuotient a b % 5 = 0 then liftedQuotient a b + 1 else liftedQuotient a b,
      -lift a b) := rfl

theorem liftedDivisor_pos (hb : 0 < b) : 0 < liftedDivisor a b :=
  Nat.mul_pos hb (Nat.pow_pos (by decide))

theorem liftedDividend_mul (a b : Nat) :
    (liftedDividend a b : ℚ) * b = liftedDivisor a b * (a * 10 ^ lift a b) := by
  have hpow : (10 : ℚ) ^ (lift a b).toNat = 10 ^ (-lift a b).toNat * 10 ^ lift a b := by
    rw [← zpow_natCast, ← zpow_natCast, ← zpow_add₀ (by decide)]
    congr 1
    omega
  rw [liftedDividend, liftedDivisor]
  push_cast
  rw [hpow]
  ring

/-- The lifted quotient has more digits than the precision. -/
theorem pow_precision_lt (ha : a ≠ 0) (b : Nat) :
    (b : ℚ) * 10 ^ precision < a * 10 ^ lift a b := by
  have hdigits : 0 < digitCount a := Nat.length_toDigits_pos
  have hdivisor : (b : ℚ) < 10 ^ digitCount b := by exact_mod_cast lt_pow_digitCount b
  have hdividend : (10 : ℚ) ^ (digitCount a - 1) ≤ a := by exact_mod_cast pow_digitCount_le ha
  have hsum : (digitCount b : Int) + precision = (digitCount a - 1 : Nat) + lift a b := by
    unfold lift
    omega
  calc (b : ℚ) * 10 ^ precision < 10 ^ digitCount b * 10 ^ precision :=
        mul_lt_mul_of_pos_right hdivisor (by positivity)
    _ = 10 ^ (digitCount a - 1) * 10 ^ lift a b := by
        rw [← zpow_natCast, ← zpow_natCast, ← zpow_natCast, ← zpow_add₀ (by decide),
          ← zpow_add₀ (by decide), hsum]
    _ ≤ a * 10 ^ lift a b := mul_le_mul_of_nonneg_right hdividend (by positivity)

/-- A quotient of few digits is found without a remainder. -/
theorem scaled_longQuotient (ha : a ≠ 0) (hb : 0 < b) (hfew : m < 10 ^ precision)
    (h : (a : ℚ) / b = scaled m p) :
    scaled (longQuotient a b).1 (longQuotient a b).2 = scaled m p := by
  have hbq : (0 : ℚ) < b := Nat.cast_pos.2 hb
  have hlift : (a : ℚ) * 10 ^ lift a b = b * scaled m (p + lift a b) := by
    rw [(div_eq_iff hbq.ne').1 h, scaled, scaled, zpow_add₀ (by decide)]
    ring
  have hplaces : 0 ≤ p + lift a b := by
    have hlarge := pow_precision_lt ha b
    rw [hlift, mul_lt_mul_iff_right₀ hbq] at hlarge
    have hbound := hlarge.trans (scaled_lt_of_lt hfew _)
    rw [← zpow_natCast, zpow_lt_zpow_iff_right₀ (by norm_num)] at hbound
    omega
  have hmul : liftedDividend a b =
      liftedDivisor a b * (m * 10 ^ (p + lift a b).toNat) := by
    have hpow : (10 : ℚ) ^ (p + lift a b).toNat = 10 ^ (p + lift a b) := by
      rw [← zpow_natCast, Int.toNat_of_nonneg hplaces]
    have hcast := liftedDividend_mul a b
    rw [hlift, scaled, ← hpow, mul_left_comm, mul_comm (liftedDividend a b : ℚ)] at hcast
    exact_mod_cast mul_left_cancel₀ hbq.ne' hcast
  have hpos := liftedDivisor_pos (a := a) hb
  have hquotient : liftedQuotient a b = m * 10 ^ (p + lift a b).toNat := by
    rw [liftedQuotient, hmul, Nat.mul_div_cancel_left _ hpos]
  have hp : -lift a b + (p + lift a b).toNat = p := by omega
  rw [longQuotient_eq, if_pos (by rw [hmul, Nat.mul_mod_right]), scaled_stripPlaces, hquotient,
    scaled_mul_pow, hp]

/-- Lifting multiplies the quotient. -/
theorem liftedDividend_eq (hb : 0 < b) :
    (liftedDividend a b : ℚ) = liftedDivisor a b * ((a : ℚ) / b * 10 ^ lift a b) := by
  have hbq : (b : ℚ) ≠ 0 := Nat.cast_ne_zero.2 hb.ne'
  rw [eq_div_of_mul_eq hbq (liftedDividend_mul a b)]
  ring

theorem one_le_liftedQuotient (ha : a ≠ 0) (hb : 0 < b) : 1 ≤ liftedQuotient a b := by
  have hbq : (0 : ℚ) < b := Nat.cast_pos.2 hb
  have hone : (1 : ℚ) ≤ (a : ℚ) / b * 10 ^ lift a b := by
    rw [div_mul_eq_mul_div, le_div_iff₀ hbq, one_mul]
    refine le_trans ?_ (pow_precision_lt ha b).le
    exact le_mul_of_one_le_right hbq.le (one_le_pow₀ (by norm_num))
  have hle : (liftedDivisor a b : ℚ) ≤ liftedDividend a b := by
    rw [liftedDividend_eq hb]
    exact le_mul_of_one_le_right (Nat.cast_nonneg _) hone
  rw [liftedQuotient, Nat.le_div_iff_mul_le (liftedDivisor_pos hb), Nat.one_mul]
  exact_mod_cast hle

theorem liftedQuotient_le (hb : 0 < b) :
    (liftedQuotient a b : ℚ) ≤ (a : ℚ) / b * 10 ^ lift a b := by
  have hpos : (0 : ℚ) < liftedDivisor a b := Nat.cast_pos.2 (liftedDivisor_pos hb)
  refine Nat.cast_div_le.trans (le_of_eq ?_)
  rw [liftedDividend_eq hb, mul_div_cancel_left₀ _ hpos.ne']

/-- What is at most twice the lifted quotient is at most twice the quotient once it is put back. -/
theorem scaled_le_of_le_liftedQuotient {c : Nat} (hb : 0 < b) (h : c ≤ 2 * liftedQuotient a b) :
    scaled c (-lift a b) ≤ 2 * ((a : ℚ) / b) := by
  have hcast : (c : ℚ) ≤ 2 * ((a : ℚ) / b * 10 ^ lift a b) := by
    refine le_trans (Nat.cast_le.2 h) ?_
    push_cast
    exact mul_le_mul_of_nonneg_left (liftedQuotient_le hb) (by norm_num)
  calc scaled c (-lift a b) ≤ 2 * ((a : ℚ) / b * 10 ^ lift a b) * 10 ^ (-lift a b) :=
        mul_le_mul_of_nonneg_right hcast (by positivity)
    _ = 2 * ((a : ℚ) / b) := by
        rw [zpow_neg]
        field_simp

/-- The coefficient of a quotient is that of the lifted one, or one more. -/
theorem longQuotient_bounds (ha : a ≠ 0) (hb : 0 < b) :
    (longQuotient a b).1 ≠ 0 ∧
      scaled (longQuotient a b).1 (longQuotient a b).2 ≤ 2 * ((a : ℚ) / b) := by
  have hlarge := one_le_liftedQuotient ha hb
  rw [longQuotient_eq]
  split
  · constructor
    · intro hzero
      have hstrip := scaled_stripPlaces (digitCount (liftedQuotient a b)) (liftedQuotient a b)
        (-lift a b)
      rw [scaled_eq_zero_iff.2 hzero, eq_comm, scaled_eq_zero_iff] at hstrip
      omega
    · rw [scaled_stripPlaces]
      exact scaled_le_of_le_liftedQuotient hb (by omega)
  · dsimp only
    split
    · exact ⟨by omega, scaled_le_of_le_liftedQuotient hb (by omega)⟩
    · exact ⟨by omega, scaled_le_of_le_liftedQuotient hb (by omega)⟩

end Quotient

theorem divide_eq {a : Int} (ha : a ≠ 0) (b : Nat) :
    divide a b = (settle (longQuotient a.natAbs b).1 (longQuotient a.natAbs b).2).map
      fun result => finite (a < 0) result.1 result.2 := by
  rw [divide, if_neg ha]
  obtain ⟨c, e⟩ := longQuotient a.natAbs b
  dsimp only
  cases settle c e <;> rfl

/-- The sign of a quotient is that of the dividend. -/
theorem rational?_finite_eq_iff (a : Int) (b k : Nat) (q : Int) :
    (finite (a < 0) k q).rational? = some ((a : ℚ) / b) ↔ (a.natAbs : ℚ) / b = scaled k q := by
  rw [rational?, Option.some.injEq]
  by_cases hneg : a < 0
  · have habs : (a : ℚ) = -(a.natAbs : ℚ) := by
      rw [Nat.cast_natAbs, abs_of_neg hneg, Int.cast_neg, neg_neg]
    rw [if_pos (decide_eq_true hneg), habs, neg_div, neg_inj, eq_comm]
  · have habs : (a : ℚ) = (a.natAbs : ℚ) := by
      rw [Nat.cast_natAbs, abs_of_nonneg (Int.not_lt.1 hneg)]
    rw [if_neg (by simpa using hneg), habs, eq_comm]

/-- Whatever is divided, the quotient is exact if and only if there is a result that it equals. -/
theorem divide_exact_iff (a : Int) {b : Nat} (hb : 0 < b) :
    (∃ d, divide a b = .ok d ∧ d.rational? = some ((a : ℚ) / b)) ↔
      ∃ m p, Held m p ∧ (a.natAbs : ℚ) / b = scaled m p := by
  by_cases ha : a = 0
  · subst ha
    refine iff_of_true ⟨_, rfl, ?_⟩ ⟨0, leastLast, .of_least (Nat.pow_pos (by decide)), ?_⟩
    · simp [rational?, scaled]
    · simp [scaled]
  have hne : a.natAbs ≠ 0 := Int.natAbs_ne_zero.2 ha
  rw [divide_eq ha]
  constructor
  · rintro ⟨d, hd, hvalue⟩
    cases hsettle : settle (longQuotient a.natAbs b).1 (longQuotient a.natAbs b).2 with
    | error e =>
      rw [hsettle] at hd
      cases hd
    | ok result =>
      rw [hsettle] at hd
      obtain rfl := Except.ok.inj hd
      exact ⟨_, _, held_of_settle hsettle, (rational?_finite_eq_iff ..).1 hvalue⟩
  · rintro ⟨m, p, hheld, hvalue⟩
    obtain ⟨k, q, hsettle, hscaled⟩ := settle_of_held (longQuotient_bounds hne hb).1 hheld
      (scaled_longQuotient hne hb hheld.few hvalue)
    refine ⟨_, congrArg (Except.map _) hsettle, ?_⟩
    exact (rational?_finite_eq_iff ..).2 (hvalue.trans hscaled.symm)

/-- A dividend that is not very long has a quotient, exact or not. -/
theorem exists_divide {a : Int} {b : Nat} (hb : 0 < b)
    (h : digitCount a.natAbs < largestLead) :
    ∃ k q, Held k q ∧ divide a b = .ok (finite (a < 0) k q) := by
  by_cases ha : a = 0
  · subst ha
    exact ⟨0, 0, ⟨Nat.pow_pos (by decide), by decide, by decide⟩, rfl⟩
  have hne : a.natAbs ≠ 0 := Int.natAbs_ne_zero.2 ha
  obtain ⟨hquotient, hbound⟩ := longQuotient_bounds hne hb
  have hlead : leadingExponent (longQuotient a.natAbs b).1 (longQuotient a.natAbs b).2 <
      (digitCount a.natAbs : Int) + 1 := by
    refine leadingExponent_lt hquotient (hbound.trans_lt ?_)
    have hdividend : (a.natAbs : ℚ) < 10 ^ digitCount a.natAbs := by
      exact_mod_cast lt_pow_digitCount a.natAbs
    have hwhole : (a.natAbs : ℚ) / b ≤ a.natAbs :=
      div_le_self (Nat.cast_nonneg _) (Nat.one_le_cast.2 hb)
    calc 2 * ((a.natAbs : ℚ) / b) ≤ 10 * a.natAbs :=
          mul_le_mul (by norm_num : (2 : ℚ) ≤ 10) hwhole (by positivity) (by norm_num)
      _ < 10 * 10 ^ digitCount a.natAbs := mul_lt_mul_of_pos_left hdividend (by norm_num)
      _ = 10 ^ ((digitCount a.natAbs : Int) + 1) := by
          rw [zpow_add_one₀ (by decide), zpow_natCast, mul_comm]
  obtain ⟨k, q, hsettle⟩ := exists_settle hquotient ((Int.lt_add_one_iff.1 hlead).trans_lt h)
  exact ⟨k, q, held_of_settle hsettle, by rw [divide_eq ha, hsettle]; rfl⟩

/-- The digits of a number in front of the zeros at its end are at most as many as the precision
allows. -/
def FewDigits (n : Nat) : Prop := ∃ k < 10 ^ precision, ∃ j, n = k * 10 ^ j

/-- A number of units loses nothing when it is divided by a power of ten. It has few digits, and
the quotient is below all that is too large and has no place beyond the last one. -/
structure KeptAt (places units : Nat) : Prop where
  few : FewDigits units
  below : units < 10 ^ (places + 1000000)
  whole : 10 ^ (places - 1000026) ∣ units

/-- No unit is lost of a number that has itself no more digits than the precision. -/
theorem KeptAt.of_lt {places units : Nat} (hplaces : places ≤ 1000026)
    (h : units < 10 ^ precision) : KeptAt places units where
  few := ⟨units, h, 0, (Nat.mul_one units).symm⟩
  below := h.trans_le (Nat.pow_le_pow_right (by decide) (Nat.le_trans (by decide)
    (Nat.le_add_left 1000000 places)))
  whole := by
    rw [Nat.sub_eq_zero_of_le hplaces]
    exact Nat.one_dvd units

theorem scaled_neg_lt_iff (units places n : Nat) :
    scaled units (-places) < 10 ^ (n : Int) ↔ units < 10 ^ (places + n) := by
  have hpos : (0 : ℚ) < 10 ^ (places : Int) := zpow_pos (by norm_num) _
  rw [scaled, zpow_neg, ← div_eq_mul_inv, div_lt_iff₀ hpos, ← zpow_add₀ (by decide), add_comm,
    ← Nat.cast_add, zpow_natCast]
  exact_mod_cast Iff.rfl

section PowersOfTen

variable {places units : Nat}

theorem div_pow_eq_scaled (places units : Nat) :
    (units : ℚ) / (10 ^ places : Nat) = scaled units (-places) := by
  rw [scaled, zpow_neg, zpow_natCast, Nat.cast_pow]
  rfl

theorem leastLast_eq : leastLast = -1000026 := by decide

theorem largestLead_eq : largestLead + 1 = (1000000 : Nat) := by decide

theorem keptAt_of_held {m : Nat} {p : Int} (hheld : Held m p)
    (h : scaled units (-places) = scaled m p) : KeptAt places units := by
  have hlow := hheld.low
  have hlast := leastLast_eq
  refine ⟨?_, ?_, ?_⟩
  · rcases Int.le_total (-places) p with hle | hle
    · exact ⟨m, hheld.few, _, eq_mul_pow_of_scaled_eq h hle⟩
    · refine ⟨units, ?_, 0, (Nat.mul_one units).symm⟩
      refine Nat.lt_of_le_of_lt ?_ hheld.few
      rw [eq_mul_pow_of_scaled_eq h.symm hle]
      exact Nat.le_mul_of_pos_right units (Nat.pow_pos (by decide))
  · rw [← scaled_neg_lt_iff, ← largestLead_eq, h]
    exact hheld.scaled_lt
  · rcases Int.le_total (-places) p with hle | hle
    · rw [eq_mul_pow_of_scaled_eq h hle]
      refine Nat.dvd_trans (Nat.pow_dvd_pow 10 ?_) (Nat.dvd_mul_left _ _)
      omega
    · have hzero : places - 1000026 = 0 := by omega
      rw [hzero]
      exact Nat.one_dvd units

/-- The digits of the result are those in front of the zeros at the end, or fewer where some of
these zeros have no place of their own. -/
theorem KeptAt.exists_held (h : KeptAt places units) :
    ∃ m p, Held m p ∧ scaled units (-places) = scaled m p := by
  have hlast := leastLast_eq
  obtain ⟨⟨k, hk, j, rfl⟩, hbelow, hwhole⟩ := h
  rw [← scaled_neg_lt_iff, ← largestLead_eq] at hbelow
  by_cases hzero : k = 0
  · subst hzero
    exact ⟨0, leastLast, .of_least hk, by simp [scaled]⟩
  rcases Nat.lt_or_ge j (places - 1000026) with hlt | hge
  · -- `k` ends in zeros itself, which have to go
    obtain ⟨w, hw⟩ := hwhole
    have hkw : k = w * 10 ^ (places - 1000026 - j) := by
      refine Nat.eq_of_mul_eq_mul_right (Nat.pow_pos (n := j) (by decide : 0 < 10)) ?_
      rw [hw, Nat.mul_assoc, ← Nat.pow_add, Nat.sub_add_cancel hlt.le, Nat.mul_comm]
    have hwk : w ≤ k := by
      rw [hkw]
      exact Nat.le_mul_of_pos_right w (Nat.pow_pos (by decide))
    have hleast : -(places : Int) + (places - 1000026 : Nat) = leastLast := by omega
    refine ⟨w, leastLast, .of_least (Nat.lt_of_le_of_lt hwk hk), ?_⟩
    rw [hw, Nat.mul_comm, scaled_mul_pow, hleast]
  · rw [scaled_mul_pow] at hbelow ⊢
    exact ⟨k, _, .of_scaled_lt hzero hk (by omega) hbelow, rfl⟩

theorem exists_held_iff (places units : Nat) :
    (∃ m p, Held m p ∧ (units : ℚ) / (10 ^ places : Nat) = scaled m p) ↔ KeptAt places units := by
  rw [div_pow_eq_scaled]
  constructor
  · rintro ⟨m, p, hheld, h⟩
    exact keptAt_of_held hheld h
  · exact KeptAt.exists_held

end PowersOfTen

end Phrasebook.Decimal
