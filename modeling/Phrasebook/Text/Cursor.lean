import Phrasebook.Position
import Phrasebook.Text.Blank

/-!
A cursor is a place in a text. Moving on stops at the end. Moving back may lead before the start,
where places count from the end of the text: who moves on from there comes to the end of the text,
and then through all of it.
-/
namespace Phrasebook

structure Cursor where
  source : Text
  offset : Int
deriving DecidableEq, Repr

namespace Cursor

inductive NoCharacter
  | beyondEnd (place : Int)
  | beforeStart
deriving DecidableEq, Repr

def NoCharacter.message : NoCharacter → Text
  | beyondEnd place => "Unexpected EOF at position " ++ Text.ofInt place
  | beforeStart => "string index out of range"

def atEnd (cursor : Cursor) : Bool := cursor.source.length ≤ cursor.offset

/-- The character some way ahead, or behind when the distance is negative; beyond the end there is
none. -/
def peek? (cursor : Cursor) (distance : Int) : Except NoCharacter (Option Char) :=
  let place := cursor.offset + distance
  if cursor.source.length ≤ place then .ok none
  else
    match index? cursor.source.length place with
    | some i => .ok cursor.source[i]?
    | none => .error .beforeStart

def current (cursor : Cursor) : Except NoCharacter Char :=
  match cursor.peek? 0 with
  | .ok (some c) => .ok c
  | .ok none => .error (.beyondEnd cursor.offset)
  | .error e => .error e

def rest (cursor : Cursor) : Text :=
  cursor.source.drop (position cursor.source.length cursor.offset)

/-- What moving on comes by: the text that lies ahead of the cursor if a copy of it is put before
it. -/
def ahead (cursor : Cursor) : Text :=
  (cursor.source ++ cursor.source).drop (cursor.source.length + cursor.offset).toNat

def advance (cursor : Cursor) (count : Int) : Cursor :=
  ⟨cursor.source, min (cursor.offset + count) cursor.source.length⟩

def skipBlanks (cursor : Cursor) : Except NoCharacter Cursor :=
  if cursor.atEnd then .ok cursor
  else if cursor.offset < -cursor.source.length then .error .beforeStart
  else .ok (cursor.advance (cursor.ahead.takeWhile Text.isBlank).length)

def isDigit (cursor : Cursor) : Except NoCharacter Bool :=
  (cursor.peek? 0).map fun c => c.any Char.isDigit

/-- Whether a text can be read at the cursor. Beyond the end nothing can, not even nothing. -/
def startsWith (cursor : Cursor) (text : Text) : Bool :=
  cursor.offset ≤ cursor.source.length && text.isPrefixOf cursor.rest

def expect? (cursor : Cursor) (text : Text) : Except NoCharacter (Option Cursor) :=
  (cursor.peek? 0).map fun c =>
    if c.map List.singleton = some text then some (cursor.advance 1) else none

def upTo (cursor : Cursor) (stop : Int) : Text :=
  (cursor.source.take (position cursor.source.length stop)).drop
    (position cursor.source.length cursor.offset)

theorem rest_natCast (source : Text) (offset : Nat) :
    (Cursor.mk source offset).rest = source.drop offset := by
  rcases Nat.le_total offset source.length with h | h
  · simp [rest, position_natCast h]
  · rw [List.drop_of_length_le h]
    refine List.drop_of_length_le ?_
    simp only [position]
    split <;> omega

theorem ahead_natCast (source : Text) (offset : Nat) :
    (Cursor.mk source offset).ahead = source.drop offset := by
  have : ((source.length : Int) + offset).toNat = source.length + offset := by omega
  simp [ahead, this, List.drop_append]

/-- Moving on leaves out what it came by. -/
theorem ahead_advance {cursor : Cursor} (h : -cursor.source.length ≤ cursor.offset)
    (count : Nat) : (cursor.advance count).ahead = cursor.ahead.drop count := by
  obtain ⟨source, offset⟩ := cursor
  obtain ⟨place, hplace⟩ : ∃ place : Nat, (source.length : Int) + offset = place :=
    Int.eq_ofNat_of_zero_le (by dsimp only at h; omega)
  have hmoved : (source.length : Int) + min (offset + count) source.length =
      (min (place + count) (source ++ source).length : Nat) := by
    rw [List.length_append]
    omega
  simp only [ahead, advance, hplace, hmoved, Int.toNat_natCast, List.drop_drop]
  rcases Nat.le_total (place + count) (source ++ source).length with hle | hle
  · rw [Nat.min_eq_left hle]
  · rw [Nat.min_eq_right hle, List.drop_of_length_le hle, List.drop_of_length_le (Nat.le_refl _)]

private theorem drop_length_takeWhile (p : Char → Bool) (text : Text) :
    text.drop (text.takeWhile p).length = text.dropWhile p := by
  induction text with
  | nil => rfl
  | cons c rest ih => by_cases h : p c <;> simp [h, ih]

theorem ahead_skipBlanks {cursor moved : Cursor} (h : cursor.skipBlanks = .ok moved) :
    moved.ahead = Text.trimLeft cursor.ahead := by
  unfold skipBlanks at h
  split at h
  · next hend =>
    obtain rfl := Except.ok.inj h
    have hlen : (cursor.source.length : Int) ≤ cursor.offset := by simpa [atEnd] using hend
    have hnil : cursor.ahead = [] := List.drop_of_length_le (by rw [List.length_append]; omega)
    simp [hnil, Text.trimLeft]
  · split at h
    · simp at h
    · next hstart =>
      obtain rfl := Except.ok.inj h
      rw [ahead_advance (by omega), drop_length_takeWhile]
      rfl

end Cursor
end Phrasebook
