import Phrasebook.PluralRule

/-!
From a hundred on the form of an integer depends on its last two digits, and of these not even all
are told apart. Below twenty the numbers three and four, five to nine, and twelve to nineteen go
together; from twenty on, and at the full hundred, the last digit alone counts, and again two to
four and five to nine go together. What is left are eleven endings, each of which some family needs.
-/
namespace Phrasebook

namespace PluralFamily

theorem isExactly_ofInt (n k : Int) : isExactly (.ofInt n) k = decide (n = k) :=
  Point.same_ofInt n k

theorem isBetween_ofInt (n low high : Int) :
    isBetween (.ofInt n) low high = decide (low ≤ n ∧ n ≤ high) := by
  rw [isBetween, Point.le_ofInt, Point.le_ofInt, Bool.decide_and]

theorem lastDigits_ofInt {n : Int} (h : 0 ≤ n) : lastDigits (.ofInt n) = (n % 10, n % 100) := by
  rw [lastDigits, Point.truncate_ofInt, Int.tmod_eq_emod_of_nonneg h, Int.tmod_eq_emod_of_nonneg h]

/-- From a hundred on only the last two digits matter. -/
theorem index_ofInt_of_hundred_le (family : PluralFamily) {n : Int} (h : 100 ≤ n) :
    family.index (.ofInt n) = family.index (.ofInt (100 + n % 100)) := by
  have hexactly : ∀ {m : Int}, 100 ≤ m → ∀ {k : Int}, k < 100 → isExactly (.ofInt m) k = false := by
    intro m hm k hk
    rw [isExactly_ofInt]
    exact decide_eq_false (by omega)
  have hbetween : ∀ {m : Int}, 100 ≤ m → ∀ {high : Int}, high < 100 →
      ∀ low, isBetween (.ofInt m) low high = false := by
    intro m hm high hhigh low
    rw [isBetween_ofInt]
    exact decide_eq_false (by omega)
  have hlater : 100 ≤ 100 + n % 100 := by omega
  have hdigits : lastDigits (.ofInt (100 + n % 100)) = lastDigits (.ofInt n) := by
    rw [lastDigits_ofInt (by omega), lastDigits_ofInt (by omega)]
    congr 1 <;> omega
  cases family <;>
    simp [index, hdigits, hexactly h, hexactly hlater, hbetween h, hbetween hlater]

/-- The least number from one on with an ending that no family tells from that of the number. -/
def ending (n : Int) : Int :=
  let last := n % 10
  let lastTwo := n % 100
  if lastTwo = 0 ∨ 20 ≤ lastTwo then
    if last ≤ 1 then 20 + last else if last ≤ 4 then 22 else 25
  else if lastTwo ≤ 2 ∨ lastTwo = 10 ∨ lastTwo = 11 then lastTwo
  else if lastTwo ≤ 4 then 3
  else if lastTwo ≤ 9 then 5
  else 12

def endings : List Int := [1, 2, 3, 5, 10, 11, 12, 20, 21, 22, 25]

theorem ending_emod (n : Int) : ending (n % 100) = ending n := by
  have hlast : n % 100 % 10 = n % 10 := by omega
  have hlastTwo : n % 100 % 100 = n % 100 := by omega
  simp only [ending, hlast, hlastTwo]

/-- What holds of the numbers up to a hundred holds of all last two digits. -/
theorem exists_lastTwo (n : Int) : ∃ digits < 100, n % 100 = (digits : Nat) :=
  ⟨(n % 100).toNat, by omega, by omega⟩

theorem ending_mem_endings (n : Int) : ending n ∈ endings := by
  have hall : ∀ digits < 100, ending (digits : Nat) ∈ endings := by decide +kernel
  obtain ⟨digits, hdigits, heq⟩ := exists_lastTwo n
  rw [← ending_emod, heq]
  exact hall digits hdigits

theorem index_ofInt_ending (family : PluralFamily) {n : Int} (h : 100 ≤ n) :
    family.index (.ofInt n) = family.index (.ofInt (100 + ending n)) := by
  have hall : ∀ family ∈ all, ∀ digits < 100,
      index family (.ofInt (100 + (digits : Nat))) =
        index family (.ofInt (100 + ending (digits : Nat))) := by
    decide +kernel
  obtain ⟨digits, hdigits, heq⟩ := exists_lastTwo n
  rw [index_ofInt_of_hundred_le family h, ← ending_emod, heq]
  exact hall family (mem_all family) digits hdigits

/-- Different endings have different forms in some family. -/
theorem ending_separated : ∀ a ∈ endings, ∀ b ∈ endings,
    (∀ family ∈ all, index family (.ofInt (100 + a)) = index family (.ofInt (100 + b))) → a = b := by
  decide +kernel

/-- From a hundred on two integers have the same form in every family if and only if they end
alike. -/
theorem forall_index_eq_iff {m n : Int} (hm : 100 ≤ m) (hn : 100 ≤ n) :
    (∀ family : PluralFamily, family.index (.ofInt m) = family.index (.ofInt n)) ↔
      ending m = ending n := by
  constructor
  · intro hsame
    refine ending_separated _ (ending_mem_endings m) _ (ending_mem_endings n) fun family _ => ?_
    rw [← index_ofInt_ending family hm, ← index_ofInt_ending family hn, hsame family]
  · intro hsame family
    rw [index_ofInt_ending family hm, index_ofInt_ending family hn, hsame]

end PluralFamily

/-- From a hundred on the forms of every language come round after each hundred numbers. -/
theorem pluralIndex_comes_round (language : Text) {n : Int} (h : 100 ≤ n) :
    ∃ form < pluralForms language,
      pluralIndex language (.integer n) = .ok form ∧
      pluralIndex language (.integer (n + 100)) = .ok form ∧
      pluralIndex language (.integer (100 + n % 100)) = .ok form := by
  have hlater : 100 ≤ n + 100 := by omega
  have hround : (n + 100) % 100 = n % 100 := by omega
  refine ⟨_, PluralFamily.index_lt_forms _ _, rfl, congrArg Except.ok ?_, congrArg Except.ok ?_⟩
  · rw [PluralFamily.index_ofInt_of_hundred_le _ hlater, hround,
      ← PluralFamily.index_ofInt_of_hundred_le _ h]
  · exact (PluralFamily.index_ofInt_of_hundred_le _ h).symm

/-- Arabic tells ninety-nine from a hundred and ninety-nine, so the first hundred is not like the
others. -/
theorem pluralIndex_comes_round_arabic :
    (100 : Int) ≤ 102 ∧
      pluralIndex "ar" (.integer 202) = pluralIndex "ar" (.integer 102) ∧
      pluralIndex "ar" (.integer 102) = .ok 5 ∧ pluralIndex "ar" (.integer 2) = .ok 2 ∧
      pluralIndex "ar" (.integer 199) = .ok 5 ∧ pluralIndex "ar" (.integer 99) = .ok 4 := by
  have hfamily : PluralFamily.ofLanguage "ar" = .arabic := by decide +kernel
  have hindex : ∀ n, pluralIndex "ar" (.integer n) = .ok (PluralFamily.arabic.index (.ofInt n)) := by
    intro n
    rw [← hfamily]
    rfl
  have hle : (100 : Int) ≤ 102 := by decide
  obtain ⟨form, -, hfirst, hnext, -⟩ := pluralIndex_comes_round "ar" hle
  have hforms : PluralFamily.arabic.index (.ofInt 102) = 5 ∧
      PluralFamily.arabic.index (.ofInt 2) = 2 ∧ PluralFamily.arabic.index (.ofInt 199) = 5 ∧
      PluralFamily.arabic.index (.ofInt 99) = 4 := by
    decide +kernel
  obtain ⟨h102, h2, h199, h99⟩ := hforms
  exact ⟨hle, hnext.trans hfirst.symm, by rw [hindex, h102], by rw [hindex, h2],
    by rw [hindex, h199], by rw [hindex, h99]⟩

end Phrasebook
