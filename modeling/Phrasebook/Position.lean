/-!
Places in a sequence are counted from its start, or from its end when they are negative. Where a
sequence is cut, a place beyond an end is that end; an element is only at a place between them.
-/
namespace Phrasebook

def position (length : Nat) (index : Int) : Nat :=
  if index < 0 then (length + index).toNat else min index.toNat length

theorem position_le (length : Nat) (index : Int) : position length index ≤ length := by
  unfold position
  split <;> omega

theorem position_natCast {length i : Nat} (h : i ≤ length) : position length i = i := by
  unfold position
  split <;> omega

def index? (length : Nat) (place : Int) : Option Nat :=
  if -length ≤ place ∧ place < length then some (position length place) else none

theorem index?_lt {length i : Nat} {place : Int} (h : index? length place = some i) :
    i < length := by
  unfold index? at h
  split at h
  · next hplace =>
    obtain rfl := Option.some.inj h
    unfold position
    split <;> omega
  · simp at h

end Phrasebook
