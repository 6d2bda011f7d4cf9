import Phrasebook.Formatting.Formatter
import Phrasebook.Proofs.Number.Numeral
import Phrasebook.Proofs.Number.Quotient

/-!
Amounts of money in major units. An amount is a whole number of minor units, and where a power of
ten of them make one major unit nothing is lost as long as the digits in front of the zeros at its
end fit the precision of decimals. In a locale without a currency the amount in major units is the
text to be shown instead, which tells that number.
-/
namespace Phrasebook

namespace Decimal

/-- The text of a result is read as that result. -/
theorem Held.read_text {k : Nat} {e : Int} (h : Held k e) (negative : Bool) :
    read (finite negative k e).text = .ok (finite negative k e) := by
  have hhigh := h.high
  have hlow := h.low
  have hlead : largestLead ≤ maxExponent := by decide
  have hlast : minExponent ≤ leastLast := by decide
  rw [Decimal.read_text, bounded]
  refine if_neg (not_or.2 ⟨?_, by omega⟩)
  split
  · next hzero =>
    subst hzero
    have hdigit : leadingExponent 0 e = e := by
      have hone : digitCount 0 = 1 := rfl
      unfold leadingExponent
      omega
    omega
  · omega

/-- A text denotes a number if it is read as a decimal that equals it. -/
def Denotes (text : Text) (value : ℚ) : Prop :=
  ∃ d, read text = .ok d ∧ d.rational? = some value

theorem Denotes.unique {text : Text} {value other : ℚ} (h : Denotes text value)
    (hother : Denotes text other) : value = other := by
  obtain ⟨d, hd, hvalue⟩ := h
  obtain ⟨d', hd', hvalue'⟩ := hother
  rw [hd] at hd'
  obtain rfl := Except.ok.inj hd'
  rw [hvalue] at hvalue'
  exact Option.some.inj hvalue'

theorem Held.denotes_text_iff {k : Nat} {e : Int} (h : Held k e) (negative : Bool) (value : ℚ) :
    Denotes (finite negative k e).text value ↔ (finite negative k e).rational? = some value := by
  unfold Denotes
  rw [h.read_text]
  constructor
  · rintro ⟨d, hd, hvalue⟩
    obtain rfl := Except.ok.inj hd
    exact hvalue
  · exact fun hvalue => ⟨_, rfl, hvalue⟩

end Decimal

def fallback? (outcome : Except FormatError Text) : Option Text :=
  match outcome with
  | .error (.fault (.formatting _ fallback)) => some fallback
  | _ => none

namespace Locale

open Decimal

section Money

variable (locale : Locale) (almanac : Almanac)

def majorValue (amount : Int) : ℚ := amount / locale.subUnit

def Divides (amount : Int) : Prop :=
  ∃ d, locale.majorUnits amount = .ok d ∧ d.rational? = some (locale.majorValue amount)

def moneyFallback? (amount : Int) : Option Text :=
  fallback? (locale.formatCurrency almanac (.number (.integer amount)))

def withoutCurrency (amount : Int) (fallback : Text) : FormatError :=
  failed "Currency" (Text.ofInt amount) fallback ("no currency configured for " ++ locale.code)

end Money

section NoCurrency

variable {locale : Locale} (almanac : Almanac) {amount : Int}

/-- Without a currency the amount in major units is to be shown. -/
theorem exists_formatCurrency_eq (hunit : 0 < locale.subUnit) (hnone : locale.currency = none)
    (hfew : digitCount amount.natAbs ≤ digitLimit) :
    ∃ k e, Held k e ∧ locale.majorUnits amount = .ok (finite (amount < 0) k e) ∧
      locale.formatCurrency almanac (.number (.integer amount)) =
        .error (locale.withoutCurrency amount (finite (amount < 0) k e).text) := by
  have hlimit : (digitLimit : Int) < largestLead := by decide
  obtain ⟨k, e, hheld, hdivide⟩ := exists_divide (a := amount) hunit (by omega)
  have hmajor : locale.majorUnits amount = .ok (finite (amount < 0) k e) := hdivide
  refine ⟨k, e, hheld, hmajor, ?_⟩
  have hwritable : (Value.number (.integer amount)).isWritable := decide_eq_true hfew
  rw [formatCurrency, formatMoney, hmajor, hnone, textOf, Value.toText,
    Value.written_of_isWritable hwritable]
  rfl

theorem moneyFallback?_of_long (hnone : locale.currency = none)
    (hlong : digitLimit < digitCount amount.natAbs) :
    locale.moneyFallback? almanac amount = none := by
  have hwritable : (Value.number (.integer amount)).isWritable = false :=
    decide_eq_false (Nat.not_le.2 hlong)
  rw [moneyFallback?, formatCurrency, formatMoney, hnone, textOf, Value.toText,
    Value.written_of_not_isWritable hwritable]
  cases locale.majorUnits amount <;> rfl

/-- There is a text to be shown for an amount that can be written out, and for no other. -/
theorem moneyFallback?_isSome_iff (hunit : 0 < locale.subUnit) (hnone : locale.currency = none) :
    (locale.moneyFallback? almanac amount).isSome ↔ digitCount amount.natAbs ≤ digitLimit := by
  constructor
  · intro hsome
    by_contra hlong
    rw [moneyFallback?_of_long almanac hnone (Nat.not_le.1 hlong)] at hsome
    cases hsome
  · intro hfew
    obtain ⟨k, e, -, -, houtcome⟩ := exists_formatCurrency_eq almanac hunit hnone hfew
    rw [moneyFallback?, houtcome]
    rfl

/-- An amount that can be written out, and no other, fails for want of a currency. -/
theorem digitCount_le_iff_withoutCurrency (hunit : 0 < locale.subUnit)
    (hnone : locale.currency = none) :
    digitCount amount.natAbs ≤ digitLimit ↔
      ∃ fallback, locale.formatCurrency almanac (.number (.integer amount)) =
        .error (locale.withoutCurrency amount fallback) := by
  constructor
  · intro hfew
    obtain ⟨k, e, -, -, houtcome⟩ := exists_formatCurrency_eq almanac hunit hnone hfew
    exact ⟨_, houtcome⟩
  · rintro ⟨fallback, houtcome⟩
    refine (moneyFallback?_isSome_iff almanac hunit hnone).1 ?_
    rw [moneyFallback?, houtcome]
    rfl

theorem denotes_moneyFallback_iff (hunit : 0 < locale.subUnit) (hnone : locale.currency = none)
    {fallback : Text} (h : locale.moneyFallback? almanac amount = some fallback) :
    Denotes fallback (locale.majorValue amount) ↔ locale.Divides amount := by
  have hfew : digitCount amount.natAbs ≤ digitLimit :=
    (moneyFallback?_isSome_iff almanac hunit hnone).1 (Option.isSome_of_eq_some h)
  obtain ⟨k, e, hheld, hmajor, houtcome⟩ := exists_formatCurrency_eq almanac hunit hnone hfew
  rw [moneyFallback?, houtcome] at h
  obtain rfl : (finite (amount < 0) k e).text = fallback := Option.some.inj h
  rw [hheld.denotes_text_iff, Divides, hmajor]
  constructor
  · exact fun hvalue => ⟨_, rfl, hvalue⟩
  · rintro ⟨d, hd, hvalue⟩
    obtain rfl := Except.ok.inj hd
    exact hvalue

/-- What denotes two amounts in major units denotes one amount. -/
theorem moneyFallback?_ne {other : Int} (hunit : 0 < locale.subUnit)
    (hnone : locale.currency = none) (hdivides : locale.Divides amount)
    (hdivides' : locale.Divides other) (hfew : digitCount amount.natAbs ≤ digitLimit)
    (hne : amount ≠ other) :
    locale.moneyFallback? almanac amount ≠ locale.moneyFallback? almanac other := by
  intro heq
  obtain ⟨fallback, houtcome⟩ := (digitCount_le_iff_withoutCurrency almanac hunit hnone).1 hfew
  have h : locale.moneyFallback? almanac amount = some fallback := congrArg fallback? houtcome
  have hdenotes := (denotes_moneyFallback_iff almanac hunit hnone h).2 hdivides
  have hdenotes' := (denotes_moneyFallback_iff almanac hunit hnone (heq ▸ h)).2 hdivides'
  have hunit' : (locale.subUnit : ℚ) ≠ 0 := Nat.cast_ne_zero.2 hunit.ne'
  exact hne (Int.cast_injective ((div_left_inj' hunit').1 (hdenotes.unique hdenotes')))

end NoCurrency

section PowersOfTen

variable {locale : Locale} {places : Nat}

theorem divides_iff (hunit : locale.subUnit = 10 ^ places) (amount : Int) :
    locale.Divides amount ↔ KeptAt places amount.natAbs := by
  have hpos : 0 < locale.subUnit := hunit ▸ Nat.pow_pos (by decide)
  rw [← exists_held_iff, ← hunit]
  exact divide_exact_iff amount hpos

/-- Where a power of ten of minor units make one major unit, the amounts of few digits, and no
others, are divided exactly. In a locale without a currency an amount is a fault that carries a text
to be shown if and only if it can be written out, and then for want of the currency. That text
denotes the amount in major units if and only if it was divided exactly, and so tells such amounts
apart. -/
theorem minor_units_kept_iff (almanac : Almanac) (hunit : locale.subUnit = 10 ^ places) :
    (∀ amount, locale.Divides amount ↔ KeptAt places amount.natAbs) ∧
      (locale.currency = none →
        (∀ amount : Int, (locale.moneyFallback? almanac amount).isSome ↔
          digitCount amount.natAbs ≤ digitLimit) ∧
        (∀ amount : Int, digitCount amount.natAbs ≤ digitLimit ↔
          ∃ fallback, locale.formatCurrency almanac (.number (.integer amount)) =
            .error (locale.withoutCurrency amount fallback)) ∧
        (∀ amount fallback, locale.moneyFallback? almanac amount = some fallback →
          (Denotes fallback (locale.majorValue amount) ↔ KeptAt places amount.natAbs)) ∧
        ∀ amount other : Int, KeptAt places amount.natAbs → KeptAt places other.natAbs →
          digitCount amount.natAbs ≤ digitLimit → amount ≠ other →
            locale.moneyFallback? almanac amount ≠ locale.moneyFallback? almanac other) := by
  have hpos : 0 < locale.subUnit := hunit ▸ Nat.pow_pos (by decide)
  refine ⟨divides_iff hunit, fun hnone =>
    ⟨fun amount => ?_, fun amount => ?_, fun amount fallback h => ?_, ?_⟩⟩
  · exact moneyFallback?_isSome_iff almanac hpos hnone
  · exact digitCount_le_iff_withoutCurrency almanac hpos hnone
  · exact (denotes_moneyFallback_iff almanac hpos hnone h).trans (divides_iff hunit amount)
  · intro amount other hkept hkept' hfew hne
    exact moneyFallback?_ne almanac hpos hnone ((divides_iff hunit amount).2 hkept)
      ((divides_iff hunit other).2 hkept') hfew hne

end PowersOfTen

def placeless : Locale where
  code := "xx_QQ"
  zone := Zone.ofRule "UTC" { standard := 0, steady := true }
  subUnit := 100
  currency := none

theorem minor_units_kept_placeless :
    placeless.subUnit = 10 ^ 2 ∧ placeless.currency = none ∧ KeptAt 2 12345 ∧
      placeless.Divides 12345 ∧
      placeless.moneyFallback? (.ofToday ⟨2025, 1, 1⟩) 12345 = some "123.45" ∧
      Denotes "123.45" (placeless.majorValue 12345) := by
  have hkept : KeptAt 2 12345 := .of_lt (by decide) (by decide)
  have hfallback : placeless.moneyFallback? (.ofToday ⟨2025, 1, 1⟩) 12345 = some "123.45" := by
    decide +kernel
  obtain ⟨hdivides, hnone⟩ := minor_units_kept_iff (.ofToday ⟨2025, 1, 1⟩)
    (show placeless.subUnit = 10 ^ 2 from rfl)
  obtain ⟨-, -, hdenotes, -⟩ := hnone rfl
  exact ⟨rfl, rfl, hkept, (hdivides 12345).2 hkept, hfallback, (hdenotes _ _ hfallback).2 hkept⟩

/-- Of twenty-nine digits the last is lost, and amounts that differ in it are shown alike. -/
theorem minor_unit_lost :
    ¬ placeless.Divides 10000000000000000000000000001 ∧
      placeless.moneyFallback? (.ofToday ⟨2025, 1, 1⟩) 10000000000000000000000000001 =
        some "100000000000000000000000000.0" ∧
      placeless.moneyFallback? (.ofToday ⟨2025, 1, 1⟩) 10000000000000000000000000002 =
        some "100000000000000000000000000.0" := by
  have hdivide : placeless.majorUnits 10000000000000000000000000001 =
      .ok (finite false 1000000000000000000000000000 (-1)) := by decide +kernel
  refine ⟨?_, by decide +kernel, by decide +kernel⟩
  rintro ⟨d, hd, hvalue⟩
  rw [hdivide] at hd
  obtain rfl := Except.ok.inj hd
  norm_num [rational?, scaled, majorValue, placeless] at hvalue

end Locale
end Phrasebook
