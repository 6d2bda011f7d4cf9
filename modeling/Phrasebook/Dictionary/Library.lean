import Phrasebook.Dictionary.Basic
import Phrasebook.Number
import Phrasebook.Position

/-!
A library holds dictionaries that refer to one another. Looking up a key goes depth first through
own entries and children, and the first dictionary that has the key decides. References may lead
back to where they started; a search that comes upon such a circle never ends. A way that is longer
than the library has dictionaries leads in a circle, so that many steps tell.
-/
namespace Phrasebook

structure Library where
  dictionaries : List Dictionary := []

structure Endless where
deriving DecidableEq, Repr

def Endless.message (_ : Endless) : Text := "maximum recursion depth exceeded"

namespace Library

def get? (library : Library) (ref : DictionaryRef) : Option Dictionary :=
  library.dictionaries[ref]?

def size (library : Library) : Nat := library.dictionaries.length

def add (library : Library) (dictionary : Dictionary) : DictionaryRef × Library :=
  (library.size, ⟨library.dictionaries ++ [dictionary]⟩)

def modify (library : Library) (ref : DictionaryRef) (f : Dictionary → Dictionary) : Library :=
  ⟨library.dictionaries.modify ref f⟩

def firstAnswer (ask : DictionaryRef → Except Endless (Option Text)) :
    List DictionaryRef → Except Endless (Option Text)
  | [] => .ok none
  | ref :: refs =>
    match ask ref with
    | .error e => .error e
    | .ok (some text) => .ok (some text)
    | .ok none => firstAnswer ask refs

def search (library : Library) (key : Text) : Nat → DictionaryRef → Except Endless (Option Text)
  | 0, _ => .error ⟨⟩
  | steps + 1, ref =>
    match library.get? ref with
    | none => .ok none
    | some dictionary =>
      match dictionary.own? key with
      | some text => .ok (some text)
      | none => firstAnswer (library.search key steps) dictionary.children

def lookup (library : Library) (ref : DictionaryRef) (key : Text) :
    Except Endless (Option Text) :=
  library.search key library.size ref

def merge (first second : OrderedMap Text) : OrderedMap Text :=
  second.entries.foldl (fun merged entry => merged.setDefault entry.1 entry.2) first

def mergeAll (list : DictionaryRef → Except Endless (OrderedMap Text)) :
    OrderedMap Text → List DictionaryRef → Except Endless (OrderedMap Text)
  | merged, [] => .ok merged
  | merged, ref :: refs =>
    match list ref with
    | .error e => .error e
    | .ok listing => mergeAll list (merge merged listing) refs

def collect (library : Library) : Nat → DictionaryRef → Except Endless (OrderedMap Text)
  | 0, _ => .error ⟨⟩
  | steps + 1, ref =>
    match library.get? ref with
    | none => .ok .empty
    | some dictionary =>
      mergeAll (library.collect steps) dictionary.ownTexts dictionary.children

/-- All texts of a dictionary: its own, then those of its children under keys that are new. -/
def listing (library : Library) (ref : DictionaryRef) : Except Endless (OrderedMap Text) :=
  library.collect library.size ref

def contains (library : Library) (ref : DictionaryRef) (key : Option Text) :
    Except Endless Bool :=
  match key with
  | none => .ok false
  | some key => (library.lookup ref key).map Option.isSome

def count (library : Library) (ref : DictionaryRef) : Except Endless Nat :=
  (library.listing ref).map OrderedMap.size

inductive NoPlace
  | notWhole (kind : Text)
  | beyond
deriving DecidableEq, Repr

def NoPlace.message : NoPlace → Text
  | notWhole kind => "'" ++ kind ++ "' object cannot be interpreted as an integer"
  | beyond => "Python int too large to convert to C ssize_t"

def placeLimit : Int := Int.ofNat (Nat.pow 2 63)

def isPlace (n : Int) : Bool := -placeLimit ≤ n && n < placeLimit

/-- The place that a value means; nothing means the end. -/
def placeOf : Value → Except NoPlace (Option Int)
  | .absent => .ok none
  | .number (.truth b) => .ok (some (Number.ofBool b))
  | .number (.integer n) => if isPlace n then .ok (some n) else .error .beyond
  | value => .error (.notWhole value.fullKind)

/-- The children with one more at a place. Negative places count from the end, and places before the
start or behind the end are the start or the end. -/
def insertAt (children : List DictionaryRef) (child : DictionaryRef) (place : Option Int) :
    List DictionaryRef :=
  match place with
  | none => children ++ [child]
  | some index =>
    let place := position children.length index
    children.take place ++ child :: children.drop place

def insertChild (children : List DictionaryRef) (child : DictionaryRef) (priority : Value) :
    Except NoPlace (List DictionaryRef) :=
  (placeOf priority).map (insertAt children child)

theorem mem_insertAt {children : List DictionaryRef} {child ref : DictionaryRef}
    {place : Option Int} :
    ref ∈ insertAt children child place ↔ ref = child ∨ ref ∈ children := by
  cases place with
  | none => simp [insertAt, or_comm]
  | some index =>
    have hmem : ref ∈ children ↔ ref ∈ children.take (position children.length index) ∨
        ref ∈ children.drop (position children.length index) := by
      rw [← List.mem_append, List.take_append_drop]
    rw [insertAt, List.mem_append, List.mem_cons, hmem, or_left_comm]

theorem exists_insertAt {children inserted : List DictionaryRef} {child : DictionaryRef}
    {priority : Value} (h : insertChild children child priority = .ok inserted) :
    ∃ place, inserted = insertAt children child place := by
  unfold insertChild at h
  cases hplace : placeOf priority with
  | error reason => simp [hplace, Except.map] at h
  | ok place => exact ⟨place, by simpa [hplace, Except.map] using h.symm⟩

end Library
end Phrasebook
