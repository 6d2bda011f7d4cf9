import Phrasebook.PluralRule

/-!
Where nothing is counted every family takes its last form: below zero, at the infinities and for
NaN. The last digits of the integer part are negative or nought there, and no place that a rule
singles out is among them, so what is left is the form for all the others.
-/
namespace Phrasebook

namespace Point

/-- Below zero, or no finite number. -/
def Countless (p : Point) : Prop := p.lt (.ofInt 0) ∨ ¬ p.isFinite

variable {p : Point}

theorem countless_finite_iff (units : Int) : (finite units).Countless ↔ units < 0 := by
  have hlt : (finite units).lt (ofInt 0) ↔ units < 0 := by
    simp only [lt, le, ofInt, Int.zero_mul, Bool.and_eq_true, Bool.not_eq_true',
      decide_eq_true_eq, decide_eq_false_iff_not]
    omega
  simp [Countless, hlt, isFinite]

theorem countless_ofInt {n : Int} (h : n < 0) : (ofInt n).Countless := by
  have hunits := unitsPerOne_pos
  exact (countless_finite_iff _).2 (Int.mul_neg_of_neg_of_pos h (by omega))

/-- No place from zero on lies at a place where nothing is counted, or on either side of it. -/
theorem Countless.not_between (h : p.Countless) {low : Int} (hlow : 0 ≤ low) (high : Int) :
    ((ofInt low).le p && p.le (ofInt high)) = false := by
  cases p with
  | undefined => rfl
  | negInfinity => rfl
  | posInfinity => rfl
  | finite units =>
    have hunits := (countless_finite_iff units).1 h
    have hpos : 0 ≤ low * unitsPerOne := Int.mul_nonneg hlow (Int.natCast_nonneg unitsPerOne)
    have hbelow : (ofInt low).le (finite units) = false := by
      simp only [ofInt, le, decide_eq_false_iff_not]
      omega
    rw [hbelow, Bool.false_and]

theorem Countless.truncate_nonpos (h : p.Countless) : p.truncate ≤ 0 := by
  cases p with
  | undefined => exact Int.le_refl 0
  | negInfinity => exact Int.le_refl 0
  | posInfinity => exact Int.le_refl 0
  | finite units =>
    have hunits := (countless_finite_iff units).1 h
    have hneg := Int.tdiv_nonneg (Int.neg_nonneg_of_nonpos (Int.le_of_lt hunits))
      (Int.natCast_nonneg unitsPerOne)
    rw [Int.neg_tdiv] at hneg
    exact Int.nonpos_of_neg_nonneg hneg

end Point

theorem Binary64.isFinite_point (x : Binary64) : x.point.isFinite = x.isFinite := by
  rcases x with _ | ⟨⟨⟩⟩ | ⟨⟨⟩, units⟩ <;> rfl

namespace PluralFamily

variable {p : Point}

/-- A remainder has the sign of what is divided. -/
theorem tmod_nonpos {n : Int} (h : n ≤ 0) (m : Int) : n.tmod m ≤ 0 := by
  have hneg := Int.tmod_nonneg m (Int.neg_nonneg_of_nonpos h)
  rw [Int.neg_tmod] at hneg
  exact Int.nonpos_of_neg_nonneg hneg

theorem isBetween_of_countless (h : p.Countless) {low : Int} (hlow : 0 ≤ low) (high : Int) :
    isBetween p low high = false :=
  h.not_between hlow high

theorem isExactly_of_countless (h : p.Countless) {k : Int} (hk : 0 ≤ k) :
    isExactly p k = false := by
  rw [isExactly, Point.same, Bool.and_comm]
  exact h.not_between hk k

theorem index_of_countless (h : p.Countless) (family : PluralFamily) :
    family.index p = family.forms - 1 := by
  have hexactly : ∀ {k : Int}, 0 ≤ k → isExactly p k = false := isExactly_of_countless h
  have hbetween : ∀ {low : Int}, 0 ≤ low → ∀ high, isBetween p low high = false :=
    isBetween_of_countless h
  have hnonpos := h.truncate_nonpos
  -- a rule asks for digits above nought before it gives any form but the last
  have hlast : ∀ {k : Int}, 0 < k → ¬ p.truncate.tmod 10 = k ∧ ¬ k ≤ p.truncate.tmod 10 := by
    have := tmod_nonpos hnonpos 10
    omega
  have hlastTwo : ∀ {k : Int}, 0 < k → ¬ p.truncate.tmod 100 = k ∧ ¬ k ≤ p.truncate.tmod 100 := by
    have := tmod_nonpos hnonpos 100
    omega
  have hbelow : ∀ {k : Int}, 0 ≤ k → ¬ k < p.truncate.tmod 100 := by
    have := tmod_nonpos hnonpos 100
    omega
  cases family <;> simp [index, forms, lastDigits, hexactly, hbetween, hlast, hlastTwo, hbelow]

end PluralFamily

/-- Every integer or binary number that is negative, infinite or no number takes the last form of
its language. -/
theorem pluralIndex_eq_last (language : Text) :
    (∀ n : Int, n < 0 → pluralIndex language (.integer n) = .ok (pluralForms language - 1)) ∧
    ∀ x : Binary64, x.point.lt (.ofInt 0) ∨ ¬ x.isFinite →
      pluralIndex language (.binary x) = .ok (pluralForms language - 1) := by
  have hplace : ∀ {number : Number} {p : Point}, number.point = .ok p → p.Countless →
      pluralIndex language number = .ok (pluralForms language - 1) := by
    intro number p hpoint hcountless
    rw [pluralIndex, hpoint, pluralForms, ← PluralFamily.index_of_countless hcountless]
    rfl
  constructor
  · intro n hn
    exact hplace rfl (Point.countless_ofInt hn)
  · intro x hx
    refine hplace rfl ?_
    rwa [Point.Countless, Binary64.isFinite_point]

/-- A fraction just below zero has the integer part of zero, but not its form. -/
theorem pluralIndex_eq_last_latvian :
    pluralIndex "lv" (.integer 0) = .ok 0 ∧ pluralIndex "lv" (.integer (-1)) = .ok 2 ∧
      pluralIndex "lv" (.binary (.finite true 1)) = .ok 2 ∧
      pluralIndex "lv" (.binary (.infinite false)) = .ok 2 ∧
      pluralIndex "lv" (.binary .nan) = .ok 2 := by
  have hfamily : PluralFamily.ofLanguage "lv" = .latvian := by decide +kernel
  have hforms : pluralForms "lv" - 1 = 2 := by rw [pluralForms, hfamily]; rfl
  have hzero : (PluralFamily.ofLanguage "lv").index (.ofInt 0) = 0 := by
    rw [hfamily]
    decide +kernel
  have hbelow : (Binary64.finite true 1).point.lt (.ofInt 0) := by decide +kernel
  obtain ⟨hintegers, hbinaries⟩ := pluralIndex_eq_last "lv"
  rw [hforms] at hintegers hbinaries
  exact ⟨congrArg Except.ok hzero, hintegers (-1) (by decide), hbinaries _ (Or.inl hbelow),
    hbinaries _ (Or.inr Bool.false_ne_true), hbinaries _ (Or.inr Bool.false_ne_true)⟩

end Phrasebook
