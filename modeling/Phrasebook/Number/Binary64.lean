import Phrasebook.Number.Rounding

/-!
Binary floating-point numbers of double precision. Every finite one is a whole multiple of
2⁻¹⁰⁷⁴, the least positive one, so a finite number is a sign and a count of these units, and
comparing and truncating are integer arithmetic. The sign is kept apart because zero has two.
-/
namespace Phrasebook

@[irreducible] def unitsPerOne : Nat := Nat.pow 2 1074

/-- The first count of units that is out of range, that of 2¹⁰²⁴. -/
@[irreducible] def unitsLimit : Nat := Nat.pow 2 2098

inductive Binary64
  | nan
  | infinite (negative : Bool)
  | finite (negative : Bool) (units : Nat)
deriving DecidableEq, Repr

namespace Binary64

/-- The number nearest to a fraction, a half going to the even neighbour. Its 53 significant
bits begin at the leading bit of the fraction; below 2⁻¹⁰²² the unit itself is the last bit. -/
def ofRatio (negative : Bool) (num den : Nat) : Binary64 :=
  let exact := num * unitsPerOne
  let spacing := Nat.pow 2 (Nat.log2 (exact / den) + 1 - 53)
  let units := roundHalfEven exact (den * spacing) * spacing
  if units < unitsLimit then finite negative units else infinite negative

/-- The number nearest to `coefficient · 10 ^ exponent`. Far outside the range the magnitude of
the decimal alone settles the answer. -/
def ofScientific (negative : Bool) (coefficient : Nat) (exponent : Int) : Binary64 :=
  let magnitude := digitCount coefficient + exponent
  if coefficient = 0 ∨ magnitude < -400 then finite negative 0
  else if 400 < magnitude then infinite negative
  else if 0 ≤ exponent then ofRatio negative (coefficient * Nat.pow 10 exponent.toNat) 1
  else ofRatio negative coefficient (Nat.pow 10 (-exponent).toNat)

def isFinite : Binary64 → Bool
  | finite .. => true
  | _ => false

def isWhole : Binary64 → Bool
  | finite _ units => units % unitsPerOne == 0
  | _ => false

def truncate : Binary64 → Int
  | finite negative units =>
    let whole : Int := units / unitsPerOne
    if negative then -whole else whole
  | _ => 0

end Binary64

/-- A place on the extended number line, the finite ones in units. Nothing compares with the
undefined place. -/
inductive Point
  | undefined
  | negInfinity
  | finite (units : Int)
  | posInfinity
deriving DecidableEq, Repr

namespace Point

def le : Point → Point → Bool
  | undefined, _ => false
  | _, undefined => false
  | negInfinity, _ => true
  | _, posInfinity => true
  | finite a, finite b => a ≤ b
  | _, _ => false

def lt (a b : Point) : Bool := le a b && !le b a

def same (a b : Point) : Bool := le a b && le b a

def ofInt (n : Int) : Point := finite (n * unitsPerOne)

def isFinite : Point → Bool
  | finite _ => true
  | _ => false

def truncate : Point → Int
  | finite units => units.tdiv unitsPerOne
  | _ => 0

theorem unitsPerOne_pos : 0 < unitsPerOne := by
  unfold unitsPerOne
  apply Nat.pow_pos
  decide

@[simp] theorem truncate_ofInt (n : Int) : truncate (ofInt n) = n := by
  have : (unitsPerOne : Int) ≠ 0 := by have := unitsPerOne_pos; omega
  simp [truncate, ofInt, Int.mul_tdiv_cancel n this]

theorem le_ofInt (a b : Int) : le (ofInt a) (ofInt b) = decide (a ≤ b) := by
  have : (0 : Int) < unitsPerOne := by have := unitsPerOne_pos; omega
  simp [le, ofInt, Int.mul_le_mul_right this]

theorem same_ofInt (a b : Int) : same (ofInt a) (ofInt b) = decide (a = b) := by
  simp only [same, le_ofInt]
  by_cases h : a = b
  · simp [h]
  · have : ¬ (a ≤ b ∧ b ≤ a) := by omega
    simpa [h] using this

end Point

def Binary64.point : Binary64 → Point
  | nan => .undefined
  | infinite true => .negInfinity
  | infinite false => .posInfinity
  | finite true units => .finite (-units)
  | finite false units => .finite units

theorem Binary64.truncate_point (x : Binary64) : x.point.truncate = x.truncate := by
  cases x with
  | nan => rfl
  | infinite negative => cases negative <;> rfl
  | finite negative units =>
    cases negative
    · rfl
    · simp [Binary64.point, Point.truncate, Binary64.truncate, Int.neg_tdiv]

end Phrasebook
