import Phrasebook.Message.Choice
import Phrasebook.Proofs.Number.Range

/-!
What the fraction of a count does to a choice. A choice depends on the count through one place on
the number line alone. For a finite count in the range of the binary numbers this is the place of
its integer part. A decimal out of range is taken for the infinity of its sign, and a message can
tell that from any integer.
-/
namespace Phrasebook

def withSign (negative : Bool) (n : Nat) : Int := if negative then -n else n

theorem withSign_tdiv (negative : Bool) (n den : Nat) :
    (withSign negative n).tdiv den = withSign negative (n / den) := by
  cases negative with
  | false => rfl
  | true => exact Int.neg_tdiv ..

theorem Binary64.truncate_finite (negative : Bool) (units : Nat) :
    (Binary64.finite negative units).truncate = (withSign negative units).tdiv unitsPerOne := by
  rw [withSign_tdiv]
  rfl

theorem natAbs_withSign (negative : Bool) (n : Nat) : (withSign negative n).natAbs = n := by
  cases negative <;> simp [withSign]

/-- Cutting off the fraction of a decimal is division towards zero. -/
theorem Decimal.truncate_finite (negative : Bool) (coefficient : Nat) (exponent : Int) :
    (Decimal.finite negative coefficient exponent).truncate =
      (withSign negative (coefficient * 10 ^ exponent.toNat)).tdiv
        ((10 ^ (-exponent).toNat : Nat) : Int) := by
  rw [withSign_tdiv]
  by_cases hnonneg : 0 ≤ exponent
  · have hone : (-exponent).toNat = 0 := by omega
    simp only [Decimal.truncate, if_pos hnonneg, hone, Nat.pow_zero, Nat.div_one]
    rfl
  · have hone : exponent.toNat = 0 := by omega
    rw [hone, Nat.pow_zero, Nat.mul_one]
    by_cases hsmall : leadingExponent coefficient exponent < 0
    · have hdigits := lt_pow_digitCount coefficient
      have hpow : 10 ^ digitCount coefficient ≤ 10 ^ (-exponent).toNat := by
        unfold leadingExponent at hsmall
        exact Nat.pow_le_pow_right (by decide) (by omega)
      rw [Nat.div_eq_of_lt (Nat.lt_of_lt_of_le hdigits hpow)]
      simp only [Decimal.truncate, if_neg hnonneg, if_pos hsmall]
      rfl
    · simp only [Decimal.truncate, if_neg hnonneg, if_neg hsmall]
      rfl

namespace Number

/-- A finite number as a quotient. There is no binary number at the limit or beyond. -/
def fraction? : Number → Option (Int × Nat)
  | truth b => some (ofBool b, 1)
  | integer n => some (n, 1)
  | binary (.finite negative units) =>
    if units < unitsLimit then some (withSign negative units, unitsPerOne) else none
  | decimal (.finite negative coefficient exponent) =>
    some (withSign negative (coefficient * 10 ^ exponent.toNat), 10 ^ (-exponent).toNat)
  | _ => none

def integerPart? (number : Number) : Option Int :=
  number.fraction?.map fun (num, den) => num.tdiv den

/-- Whether a number is no decimal beyond the binary numbers. -/
def InRange : Number → Prop
  | decimal (.finite _ coefficient exponent) =>
    coefficient * 10 ^ exponent.toNat < Binary64.overflow * 10 ^ (-exponent).toNat
  | _ => True

def infinity : Number → Number
  | decimal d => binary (.infinite d.isNegative)
  | number => number

def place (count : Number) : Except Incomparable Point := count.whole.bind point

theorem binary_of_integerPart? {negative : Bool} {units : Nat} {n : Int}
    (h : (binary (.finite negative units)).integerPart? = some n) :
    units < unitsLimit ∧ (withSign negative units).tdiv unitsPerOne = n := by
  rw [integerPart?, fraction?] at h
  split at h
  · next hlimit => exact ⟨hlimit, Option.some.inj h⟩
  · cases h

theorem place_of_inRange {count : Number} {n : Int} (hpart : count.integerPart? = some n)
    (hrange : count.InRange) : count.place = .ok (.ofInt n) := by
  cases count with
  | truth b =>
    obtain rfl : ofBool b = n := by simpa [integerPart?, fraction?] using hpart
    rfl
  | integer m =>
    obtain rfl : m = n := by simpa [integerPart?, fraction?] using hpart
    rfl
  | binary x =>
    cases x with
    | nan => cases hpart
    | infinite negative => cases hpart
    | finite negative units =>
      obtain ⟨-, hquotient⟩ := binary_of_integerPart? hpart
      have htruncate : (Binary64.finite negative units).truncate = n :=
        (Binary64.truncate_finite negative units).trans hquotient
      rw [← htruncate]
      rfl
  | decimal d =>
    cases d with
    | nan negative signaling payload => cases hpart
    | infinite negative => cases hpart
    | finite negative coefficient exponent =>
      have htruncate : (Decimal.finite negative coefficient exponent).truncate = n :=
        (Decimal.truncate_finite negative coefficient exponent).trans (Option.some.inj hpart)
      have hfinite :=
        (Binary64.ofScientific_isFinite_iff negative coefficient exponent).2 hrange
      rw [place, whole]
      simp only [Decimal.toBinary64?, hfinite, if_true, htruncate]
      rfl

theorem isWritable_of_lt_pow {n : Int} {k : Nat} (hpos : 0 < k) (hk : k ≤ digitLimit)
    (h : n.natAbs < 10 ^ k) : (integer n).isWritable := by
  have hdigits : digitCount n.natAbs ≤ k := (digitCount_le_iff hpos n.natAbs).2 h
  exact decide_eq_true (Nat.le_trans hdigits hk)

/-- The integer parts of binary numbers, and of decimals that are no further away, have few
digits. So a count in range can be written if and only if its integer part can. -/
theorem isWritable_of_inRange {count : Number} {n : Int} (hpart : count.integerPart? = some n)
    (hrange : count.InRange) : count.isWritable = (integer n).isWritable := by
  cases count with
  | truth b =>
    obtain rfl : ofBool b = n := by simpa [integerPart?, fraction?] using hpart
    cases b <;> rfl
  | integer m =>
    obtain rfl : m = n := by simpa [integerPart?, fraction?] using hpart
    rfl
  | binary x =>
    cases x with
    | nan => cases hpart
    | infinite negative => cases hpart
    | finite negative units =>
      obtain ⟨hlimit, rfl⟩ := binary_of_integerPart? hpart
      have hpow : unitsLimit ≤ 10 ^ 400 * unitsPerOne := by decide +kernel
      refine (isWritable_of_lt_pow (by decide : 0 < 400) (by decide) ?_).symm
      rw [withSign_tdiv, natAbs_withSign, Nat.div_lt_iff_lt_mul Point.unitsPerOne_pos]
      exact Nat.lt_of_lt_of_le hlimit hpow
  | decimal d =>
    cases d with
    | nan negative signaling payload => cases hpart
    | infinite negative => cases hpart
    | finite negative coefficient exponent =>
      have hquotient : (withSign negative (coefficient * 10 ^ exponent.toNat)).tdiv
          ((10 ^ (-exponent).toNat : Nat) : Int) = n := Option.some.inj hpart
      refine (isWritable_of_lt_pow (by decide : 0 < 400) (by decide) ?_).symm
      rw [← hquotient, withSign_tdiv, natAbs_withSign,
        Nat.div_lt_iff_lt_mul (Nat.pow_pos (by decide))]
      exact Nat.lt_of_lt_of_le hrange
        (Nat.mul_le_mul_right _ (Binary64.overflow_le_pow (Nat.le_refl 400)))

/-- Only a decimal is out of range, and its place is that of an infinity. -/
theorem place_of_not_inRange {count : Number} (h : ¬ count.InRange) :
    ∃ negative, count.infinity = binary (.infinite negative) ∧
      count.place = count.infinity.place ∧ count.isWritable = count.infinity.isWritable := by
  cases count with
  | truth b => exact absurd trivial h
  | integer n => exact absurd trivial h
  | binary x => exact absurd trivial h
  | decimal d =>
    refine ⟨d.isNegative, rfl, ?_, rfl⟩
    cases d with
    | nan negative signaling payload => exact absurd trivial h
    | infinite negative => exact absurd trivial h
    | finite negative coefficient exponent =>
      have hinfinite : (Decimal.finite negative coefficient exponent).toBinary64? =
          some (.infinite negative) := congrArg some (Binary64.ofScientific_eq_infinite
            (mt (Binary64.ofScientific_isFinite_iff negative coefficient exponent).1 h))
      simp [place, whole, infinity, hinfinite, Decimal.isNegative, Except.bind, point,
        Binary64.isFinite]

end Number

namespace Message

/-- Outcomes that a caller takes for the same: one text, or errors of one class. -/
inductive SameOutcome : Except SelectError Choice → Except SelectError Choice → Prop
  | text {a b : Choice} : a.text = b.text → SameOutcome (.ok a) (.ok b)
  | malformed {a b : Interval.Malformed} :
    SameOutcome (.error (.malformed a)) (.error (.malformed b))
  | noForm {diagnostic otherDiagnostic : Diagnostic} {text otherText language otherLanguage : Text}
    {count other : Number} :
    SameOutcome (.error (.noForm diagnostic text count language))
      (.error (.noForm otherDiagnostic otherText other otherLanguage))
  | incomparable : SameOutcome (.error .incomparable) (.error .incomparable)
  | tooManyDigits : SameOutcome (.error .tooManyDigits) (.error .tooManyDigits)

theorem select_eq (message : Message) (count : Number) (language : Text) :
    message.select count language =
      match count.place with
      | .error _ => .error .incomparable
      | .ok place =>
        match message.choose? place language with
        | some choice => .ok choice
        | none => .error (message.noChoice count language) := by
  unfold select Number.place
  cases count.whole with
  | error _ => rfl
  | ok whole => rfl

/-- The first explicit clause with a place is chosen for the counts there, in every language. -/
theorem selectFrom_of_find? {text : Text} {message : Message} (h : read text = .ok message)
    {count : Number} {place : Point} (hplace : count.place = .ok place)
    {interval : Interval} {found : Text}
    (hfind : message.explicit.find? (fun clause => clause.1.shape.contains place) =
      some (interval, found)) (language : Text) :
    selectFrom text count language = .ok (.explicit interval found) := by
  rw [selectFrom, h]
  simp only [select_eq, hplace, choose?, hfind]

/-- For want of a clause, counts that can be written fail alike, and so do counts that cannot. -/
theorem sameOutcome_noChoice {count other : Number} (h : count.isWritable = other.isWritable)
    (message : Message) (language : Text) :
    SameOutcome (.error (message.noChoice count language))
      (.error (message.noChoice other language)) := by
  cases hother : other.isWritable with
  | false =>
    rw [noChoice_of_not_isWritable (h.trans hother), noChoice_of_not_isWritable hother]
    exact .tooManyDigits
  | true =>
    obtain ⟨first, hfirst⟩ := noChoice_of_isWritable (h.trans hother) message language
    obtain ⟨last, hlast⟩ := noChoice_of_isWritable hother message language
    rw [hfirst, hlast]
    exact .noForm

/-- What is chosen depends on the count through its place alone. -/
theorem sameOutcome_of_place {count other : Number} (h : count.place = other.place)
    (hwritable : count.isWritable = other.isWritable) (text language : Text) :
    SameOutcome (selectFrom text count language) (selectFrom text other language) := by
  unfold selectFrom
  cases read text with
  | error fault => exact .malformed
  | ok message =>
    simp only [select_eq, h]
    cases other.place with
    | error _ => exact .incomparable
    | ok place =>
      dsimp only
      cases message.choose? place language with
      | none => exact sameOutcome_noChoice hwritable message language
      | some choice => exact .text rfl

def finiteOrNot : Text := "]-Inf,Inf[a|b"

theorem read_finiteOrNot :
    read finiteOrNot = .ok ⟨finiteOrNot, [
      .explicit ⟨"]-Inf,Inf[", .range (.infinite true) (.infinite false) false false⟩ "a",
      .standard "b"]⟩ := by
  rfl

theorem selectFrom_finiteOrNot {count : Number} {place : Point} (h : count.place = .ok place) :
    (selectFrom finiteOrNot count "ja").map Choice.text =
      .ok (if place.isFinite then "a" else "b") := by
  have hfamily : PluralFamily.ofLanguage "ja" = .invariant := by decide +kernel
  rw [selectFrom, read_finiteOrNot]
  simp only [select_eq, h, choose?, hfamily]
  cases place <;> rfl

theorem text_eq_of_sameOutcome {a b : Except SelectError Choice} {text other : Text}
    (h : SameOutcome a b) (ha : a.map Choice.text = .ok text)
    (hb : b.map Choice.text = .ok other) : text = other := by
  cases h with
  | text hsame => exact (Except.ok.inj ha).symm.trans (hsame.trans (Except.ok.inj hb))
  | malformed => cases ha
  | noForm => cases ha
  | incomparable => cases ha
  | tooManyDigits => cases ha

/-- A finite count selects like its integer part, whatever the message and the language, if and
only if it is in range. A count out of range selects like an infinity. -/
theorem selectFrom_integerPart_iff {count : Number} {n : Int} (h : count.integerPart? = some n) :
    ((∀ text language, SameOutcome (selectFrom text count language)
        (selectFrom text (.integer n) language)) ↔ count.InRange) ∧
      (¬ count.InRange → ∀ text language, SameOutcome (selectFrom text count language)
        (selectFrom text count.infinity language)) := by
  refine ⟨⟨?_, ?_⟩, ?_⟩
  · intro hsame
    by_contra hrange
    obtain ⟨negative, hinfinity, hplace, -⟩ := Number.place_of_not_inRange hrange
    have hother : count.place = .ok (Binary64.infinite negative).point := by
      rw [hplace, hinfinity]
      rfl
    have hfinite : (Number.integer n).place = .ok (.ofInt n) := rfl
    have htext := text_eq_of_sameOutcome (hsame finiteOrNot "ja")
      (selectFrom_finiteOrNot hother) (selectFrom_finiteOrNot hfinite)
    have hne : ("b" : Text) ≠ "a" := by decide
    cases negative <;> exact hne htext
  · intro hrange text language
    exact sameOutcome_of_place (Number.place_of_inRange h hrange)
      (Number.isWritable_of_inRange h hrange) text language
  · intro hrange text language
    obtain ⟨-, -, hplace, hwritable⟩ := Number.place_of_not_inRange hrange
    exact sameOutcome_of_place hplace hwritable text language

theorem selectFrom_integerPart_iff_decimals :
    (∀ text language, SameOutcome (selectFrom text (.decimal (.finite true 15 (-1))) language)
        (selectFrom text (.integer (-1)) language)) ∧
      ¬ (∀ text language, SameOutcome (selectFrom text (.decimal (.finite true 1 400)) language)
        (selectFrom text (.integer (-10 ^ 400)) language)) := by
  have hsmall : (Number.decimal (.finite true 15 (-1))).InRange := by
    unfold Number.InRange
    decide +kernel
  have hhuge : ¬ (Number.decimal (.finite true 1 400)).InRange := by
    unfold Number.InRange
    decide +kernel
  refine ⟨(selectFrom_integerPart_iff ?_).1.2 hsmall, mt (selectFrom_integerPart_iff ?_).1.1 hhuge⟩
  all_goals decide +kernel

/-- A finite decimal selects like an infinity, and not like its integer part. -/
theorem selectFrom_of_huge_decimal :
    (Number.decimal (.finite false 1 400)).integerPart? = some (10 ^ 400) ∧
      ¬ SameOutcome (selectFrom finiteOrNot (.decimal (.finite false 1 400)) "ja")
        (selectFrom finiteOrNot (.integer (10 ^ 400)) "ja") ∧
      (selectFrom finiteOrNot (.decimal (.finite false 1 400)) "ja").map Choice.text = .ok "b" ∧
      (selectFrom finiteOrNot (.integer (10 ^ 400)) "ja").map Choice.text = .ok "a" := by
  have hfar : (Number.decimal (.finite false 1 400)).place = .ok .posInfinity := by
    decide +kernel
  have hnear : (Number.integer (10 ^ 400)).place = .ok (.ofInt (10 ^ 400)) := rfl
  have hdecimal := selectFrom_finiteOrNot hfar
  have hinteger := selectFrom_finiteOrNot hnear
  refine ⟨by decide +kernel, ?_, hdecimal, hinteger⟩
  intro hsame
  have htext := text_eq_of_sameOutcome hsame hdecimal hinteger
  revert htext
  decide

end Message
end Phrasebook
