import Phrasebook.Proofs.Number.Exact
import Phrasebook.Proofs.Plural.Endings
import Phrasebook.Proofs.Plural.LastForm

/-!
An integer may be written as a binary or as a decimal number. Its form is the same for a binary
number, which is the integer or is not. A decimal is taken for the binary number next to it, which
above 2⁵³ may be another integer or an infinity; the forms then agree in all languages if and only
if the two end alike, and always below zero.
-/
namespace Phrasebook

namespace PluralFamily

/-- Every family has a language. -/
theorem exists_language (family : PluralFamily) : ∃ language, ofLanguage language = family := by
  have hfirst : ∀ family ∈ all, ofLanguage (family.languages.headD []) = family := by
    decide +kernel
  exact ⟨_, hfirst family (mem_all family)⟩

end PluralFamily

open PluralFamily Binary64

theorem truncate_nearest_of_isExact {n : Int} (h : IsExact n) : (nearest n).truncate = n := by
  rw [← truncate_point, point_nearest_of_isExact h, Point.truncate_ofInt]

/-- An integer below zero is taken for a number below zero. -/
theorem countless_nearest {n : Int} (hn : n < 0) : (nearest n).point.Countless := by
  rcases Nat.le_total n.natAbs (2 ^ 53) with hsmall | hlarge
  · rw [point_nearest_of_isExact (isExact_of_natAbs_le hsmall)]
    exact Point.countless_ofInt hn
  · rcases nearest_cases n with heq | ⟨m, heq, -, hbound⟩
    · rw [heq, decide_eq_true hn]
      exact Or.inr Bool.false_ne_true
    · have hm := hbound hlarge
      rw [heq, decide_eq_true hn, point_finite_mul, if_pos rfl]
      exact Point.countless_ofInt (by omega)

/-- A large integer is taken for one that is large as well. An infinity has the form of a hundred
in every family. -/
theorem exists_taken_for {n : Int} (h : 2 ^ 53 ≤ n) :
    ∃ m : Int, 100 ≤ m ∧ ending (nearest n).truncate = ending m ∧
      ∀ family : PluralFamily, family.index (nearest n).point = family.index (.ofInt m) := by
  have hsign : ¬ n < 0 := by omega
  rcases nearest_cases n with heq | ⟨m, heq, -, hbound⟩
  · rw [heq, decide_eq_false hsign]
    refine ⟨100, Int.le_refl 100, by decide, fun family => ?_⟩
    have hhundred : ∀ family ∈ all, family.index (.ofInt 100) = family.forms - 1 := by
      decide +kernel
    have hinfinite : (infinite false).point.Countless := Or.inr Bool.false_ne_true
    rw [hhundred family (mem_all family), index_of_countless hinfinite]
  · have hm := hbound (by omega)
    have hpoint : (nearest n).point = .ofInt m := by
      rw [heq, decide_eq_false hsign, point_finite_mul, if_neg Bool.false_ne_true]
    refine ⟨m, by omega, ?_, fun family => by rw [hpoint]⟩
    rw [← truncate_point, hpoint, Point.truncate_ofInt]

theorem pluralIndex_decimal_eq_iff (language : Text) (n : Int) :
    pluralIndex language (.decimal (.ofInt n)) = pluralIndex language (.integer n) ↔
      (ofLanguage language).index (nearest n).point = (ofLanguage language).index (.ofInt n) :=
  ⟨Except.ok.inj, congrArg Except.ok⟩

/-- A binary number that is an integer has the form of the integer in every language. The decimal
with the value of an integer has it in every language if and only if the integer is negative or
ends as the binary number next to it does; in particular if it is a binary number itself. -/
theorem pluralIndex_representation_iff (n : Int) :
    (∀ x : Binary64, x.point = .ofInt n → ∀ language,
      pluralIndex language (.binary x) = pluralIndex language (.integer n)) ∧
    ((∀ language, pluralIndex language (.decimal (.ofInt n)) = pluralIndex language (.integer n)) ↔
      n < 0 ∨ ending (nearest n).truncate = ending n) ∧
    (IsExact n → ∀ language,
      pluralIndex language (.decimal (.ofInt n)) = pluralIndex language (.integer n)) := by
  have hexact : IsExact n → ∀ language,
      pluralIndex language (.decimal (.ofInt n)) = pluralIndex language (.integer n) := by
    intro h language
    rw [pluralIndex_decimal_eq_iff, point_nearest_of_isExact h]
  refine ⟨?_, ?_, hexact⟩
  · intro x hx language
    exact congrArg (fun p => Except.ok ((ofLanguage language).index p)) hx
  · by_cases hneg : n < 0
    · refine iff_of_true (fun language => ?_) (Or.inl hneg)
      rw [pluralIndex_decimal_eq_iff, index_of_countless (countless_nearest hneg),
        index_of_countless (Point.countless_ofInt hneg)]
    rw [or_iff_right hneg]
    by_cases hsmall : n ≤ 2 ^ 53
    · have h : IsExact n := isExact_of_natAbs_le (by omega)
      exact iff_of_true (hexact h) (by rw [truncate_nearest_of_isExact h])
    · obtain ⟨m, hm, hending, hindex⟩ := exists_taken_for (show 2 ^ 53 ≤ n by omega)
      rw [hending, ← forall_index_eq_iff hm (by omega)]
      constructor
      · intro hlanguages family
        obtain ⟨language, rfl⟩ := exists_language family
        rw [← hindex]
        exact (pluralIndex_decimal_eq_iff language n).1 (hlanguages language)
      · intro hfamilies language
        rw [pluralIndex_decimal_eq_iff, hindex, hfamilies]

/-- An odd integer above 2⁵³ is taken for an even one, which may end otherwise. -/
theorem pluralIndex_decimal_ne :
    pluralIndex "lt" (.integer 9007199254740999) = .ok 1 ∧
      pluralIndex "lt" (.decimal (.ofInt 9007199254740999)) = .ok 2 := by
  have hfamily : ofLanguage "lt" = .lithuanian := by decide +kernel
  have hinteger : (ofLanguage "lt").index (.ofInt 9007199254740999) = 1 := by
    rw [hfamily]
    decide +kernel
  have hdecimal : (ofLanguage "lt").index (nearest 9007199254740999).point = 2 := by
    rw [hfamily]
    decide +kernel
  exact ⟨congrArg Except.ok hinteger, congrArg Except.ok hdecimal⟩

/-- An even number beyond 2⁵³ is a binary number. -/
theorem pluralIndex_representation_iff_even :
    (finite false (9007199254741000 * unitsPerOne)).point = .ofInt 9007199254741000 ∧
      pluralIndex "lt" (.binary (.finite false (9007199254741000 * unitsPerOne))) =
        pluralIndex "lt" (.integer 9007199254741000) ∧
      IsExact 9007199254741000 ∧
      pluralIndex "lt" (.decimal (.ofInt 9007199254741000)) =
        pluralIndex "lt" (.integer 9007199254741000) ∧
      ¬ ∀ language, pluralIndex language (.decimal (.ofInt 9007199254740999)) =
        pluralIndex language (.integer 9007199254740999) := by
  obtain ⟨hbinary, -, hdecimal⟩ := pluralIndex_representation_iff 9007199254741000
  have hpoint : (finite false (9007199254741000 * unitsPerOne)).point =
      .ofInt 9007199254741000 := point_finite_mul false 9007199254741000
  have hexact : IsExact 9007199254741000 :=
    ⟨⟨1125899906842625, by decide, 3, by decide⟩, by decide +kernel⟩
  refine ⟨hpoint, hbinary _ hpoint "lt", hexact, hdecimal hexact "lt", ?_⟩
  rw [(pluralIndex_representation_iff 9007199254740999).2.1]
  decide +kernel

end Phrasebook
