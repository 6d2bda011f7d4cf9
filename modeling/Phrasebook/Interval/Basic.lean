import Phrasebook.Number

/-!
An interval is a set of listed numbers or a range between two endpoints, kept with the text it
was written as. Containing compares places on the number line exactly, so an integer of any size
is compared with an endpoint without being rounded.
-/
namespace Phrasebook

/-- What an interval means, apart from how it was written. -/
inductive Interval.Shape
  | members (values : List Binary64)
  | range (left right : Binary64) (leftClosed rightClosed : Bool)
deriving DecidableEq, Repr

structure Interval where
  source : Text
  shape : Interval.Shape
deriving DecidableEq, Repr

namespace Interval

namespace Shape

def listed : Shape → List Binary64
  | members values => values
  | range .. => []

def left : Shape → Binary64
  | members _ => .infinite true
  | range left .. => left

def right : Shape → Binary64
  | members _ => .infinite false
  | range _ right _ _ => right

def leftClosed : Shape → Bool
  | members _ => true
  | range _ _ leftClosed _ => leftClosed

def rightClosed : Shape → Bool
  | members _ => true
  | range _ _ _ rightClosed => rightClosed

/-- Whether a place lies in the interval; the undefined place lies in none. -/
def contains (shape : Shape) (place : Point) : Bool :=
  match shape with
  | members values => values.any fun value => place.same value.point
  | range left right leftClosed rightClosed =>
    (if leftClosed then left.point.le place else left.point.lt place) &&
      if rightClosed then place.le right.point else place.lt right.point

theorem contains_undefined (shape : Shape) : shape.contains .undefined = false := by
  cases shape with
  | members values => simp [contains, Point.same, Point.le]
  | range left right leftClosed rightClosed =>
    cases h : right.point <;> cases rightClosed <;> simp [contains, Point.lt, Point.le]

end Shape

def contains (interval : Interval) (number : Number) : Except Number.Incomparable Bool :=
  number.point.map interval.shape.contains

end Interval
end Phrasebook
