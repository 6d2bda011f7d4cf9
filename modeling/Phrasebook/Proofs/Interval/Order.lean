import Phrasebook.Interval.Basic

/-!
Apart from the undefined place, which no number has but NaN, places are in a total order. A range
is given by what is past each of its ends: the left end counts as past itself if it is included,
the right one if it is not.
-/
namespace Phrasebook

namespace Point

theorem le_total {a b : Point} (ha : a ≠ .undefined) (hb : b ≠ .undefined) :
    a.le b = true ∨ b.le a = true := by
  cases a <;> cases b <;> simp_all [le]
  omega

theorem le_trans {a b c : Point} (hab : a.le b = true) (hbc : b.le c = true) :
    a.le c = true := by
  cases a <;> cases b <;> cases c <;> simp_all [le]
  omega

theorem lt_eq_not_le {a b : Point} (ha : a ≠ .undefined) (hb : b ≠ .undefined) :
    a.lt b = !b.le a := by
  rcases le_total ha hb with h | h <;> simp [lt, h]

theorem eq_of_same {a b : Point} (h : a.same b = true) : b = a := by
  cases a <;> cases b <;> simp_all [same, le]
  omega

theorem ofInt_ne_undefined (n : Int) : ofInt n ≠ .undefined := by
  simp [ofInt]

/-- Whether a place is past an end, which may count as past itself or not. -/
def past (closed : Bool) (bound place : Point) : Bool :=
  if closed then bound.le place else bound.lt place

variable {closed : Bool} {bound next place : Point}

theorem past_mono (hbound : bound ≠ .undefined) (hnext : next ≠ .undefined)
    (hplace : place ≠ .undefined) (hle : place.le next = true)
    (h : bound.past closed place = true) : bound.past closed next = true := by
  cases closed with
  | true => exact le_trans h hle
  | false =>
    simp only [past, Bool.false_eq_true, if_false, lt_eq_not_le hbound hplace,
      lt_eq_not_le hbound hnext, Bool.not_eq_true', Bool.eq_false_iff] at h ⊢
    exact fun hback => h (le_trans hle hback)

theorem past_anti (hbound : bound ≠ .undefined) (hnext : next ≠ .undefined)
    (hplace : place ≠ .undefined) (hle : bound.le next = true)
    (h : next.past closed place = true) : bound.past closed place = true := by
  cases closed with
  | true => exact le_trans hle h
  | false =>
    simp only [past, Bool.false_eq_true, if_false, lt_eq_not_le hbound hplace,
      lt_eq_not_le hnext hplace, Bool.not_eq_true', Bool.eq_false_iff] at h ⊢
    exact fun hback => h (le_trans hback hle)

end Point

namespace Interval

theorem contains_range {left right : Binary64} (hright : right.point ≠ .undefined)
    (leftClosed rightClosed : Bool) {place : Point} (hplace : place ≠ .undefined) :
    (Shape.range left right leftClosed rightClosed).contains place =
      (left.point.past leftClosed place && !right.point.past (!rightClosed) place) := by
  have hend : (if rightClosed then place.le right.point else place.lt right.point) =
      !right.point.past (!rightClosed) place := by
    cases rightClosed with
    | true =>
      show place.le right.point = !right.point.lt place
      rw [Point.lt_eq_not_le hright hplace, Bool.not_not]
    | false =>
      show place.lt right.point = !right.point.le place
      exact Point.lt_eq_not_le hplace hright
  show (_ && _) = _
  rw [hend]
  rfl

end Interval

theorem Binary64.point_eq_undefined_iff (x : Binary64) : x.point = .undefined ↔ x = .nan := by
  cases x with
  | nan => simp [Binary64.point]
  | infinite negative => cases negative <;> simp [Binary64.point]
  | finite negative units => cases negative <;> simp [Binary64.point]

theorem Binary64.ofRatio_ne_nan (negative : Bool) (num den : Nat) :
    Binary64.ofRatio negative num den ≠ .nan := by
  unfold ofRatio
  dsimp only
  split <;> simp

/-- A numeral is never read as NaN. -/
theorem Binary64.point_ofScientific_ne (negative : Bool) (coefficient : Nat) (exponent : Int) :
    (Binary64.ofScientific negative coefficient exponent).point ≠ .undefined := by
  rw [ne_eq, point_eq_undefined_iff]
  unfold ofScientific
  dsimp only
  split
  · simp
  · split
    · simp
    · split <;> apply ofRatio_ne_nan

namespace Number

/-- A number that is not NaN stays one when its fraction is cut off, and it has a place. -/
theorem exists_whole_place {number : Number} (h : number.quantity.isNan = false) :
    ∃ whole place, number.whole = .ok whole ∧ whole.point = .ok place ∧ place ≠ .undefined := by
  cases number with
  | truth b => exact ⟨_, _, rfl, rfl, Point.ofInt_ne_undefined _⟩
  | integer n => exact ⟨_, _, rfl, rfl, Point.ofInt_ne_undefined _⟩
  | binary x =>
    cases x with
    | nan => cases h
    | infinite negative => exact ⟨_, _, rfl, rfl, by cases negative <;> simp [Binary64.point]⟩
    | finite negative units => exact ⟨_, _, rfl, rfl, Point.ofInt_ne_undefined _⟩
  | decimal d =>
    cases d with
    | nan negative signaling payload => cases h
    | infinite negative =>
      exact ⟨_, _, rfl, rfl, by cases negative <;> simp [Binary64.point]⟩
    | finite negative coefficient exponent =>
      let nearest := Binary64.ofScientific negative coefficient exponent
      have hplace : nearest.point ≠ .undefined :=
        Binary64.point_ofScientific_ne negative coefficient exponent
      by_cases hfinite : nearest.isFinite
      · refine ⟨.integer (Decimal.finite negative coefficient exponent).truncate, _, ?_, rfl,
          Point.ofInt_ne_undefined _⟩
        simp only [whole, Decimal.toBinary64?, nearest, hfinite, if_true]
      · refine ⟨.decimal (.finite negative coefficient exponent), nearest.point, ?_, rfl, hplace⟩
        simp only [whole, Decimal.toBinary64?, nearest, hfinite]
        rfl

end Number
end Phrasebook
