import Phrasebook.Text.Basic

/-!
Days, times of the day, and moments that are a day and a time with or without an offset from
universal time. Days of the Gregorian calendar are numbered from the first of January of the year
one, and instants are microseconds of universal time from the beginning of that day. Offsets are in
microseconds too.
-/
namespace Phrasebook

structure Day where
  year : Nat
  month : Nat
  day : Nat
deriving DecidableEq, Repr

structure TimeOfDay where
  hour : Nat
  minute : Nat
  second : Nat
  microsecond : Nat := 0
deriving DecidableEq, Repr

/-- A day and a time, perhaps with an offset. If the offset is what the clock of a zone shows, the
moment may have that zone as its home. Of two moments that a clock shows alike one is the later. -/
structure Moment where
  day : Day
  time : TimeOfDay
  offset : Option Int
  home : Option Text := none
  later : Bool := false
deriving DecidableEq, Repr

namespace Day

def isLeap (year : Nat) : Bool := year % 4 == 0 && (year % 100 != 0 || year % 400 == 0)

def monthLengths (year : Nat) : List Nat :=
  [31, if isLeap year then 29 else 28, 31, 30, 31, 30, 31, 31, 30, 31, 30, 31]

def beforeYear (year : Nat) : Nat :=
  let full := year - 1
  365 * full + full / 4 - full / 100 + full / 400

def number (d : Day) : Nat :=
  beforeYear d.year + ((monthLengths d.year).take (d.month - 1)).foldr (· + ·) 0 + (d.day - 1)

def inMonths : Nat → List Nat → Nat → Nat × Nat
  | month, [], rest => (month, rest + 1)
  | month, length :: lengths, rest =>
    if rest < length then (month, rest + 1) else inMonths (month + 1) lengths (rest - length)

/-- The day with a number. Centuries and years are counted in the cycle of four hundred years; the
last day of a leap cycle still belongs to its last year. -/
def ofNumber (n : Nat) : Day :=
  let cycle := n % 146097
  let centuries := min 3 (cycle / 36524)
  let inCentury := cycle - 36524 * centuries
  let quads := inCentury / 1461
  let inQuad := inCentury % 1461
  let years := min 3 (inQuad / 365)
  let year := 400 * (n / 146097) + 100 * centuries + 4 * quads + years + 1
  let (month, day) := inMonths 1 (monthLengths year) (inQuad - 365 * years)
  ⟨year, month, day⟩

def limit : Nat := beforeYear 10000

end Day

def padded (width n : Nat) : Text :=
  let digits := Text.ofNat n
  List.replicate (width - digits.length) '0' ++ digits

def Day.text (d : Day) : Text :=
  padded 4 d.year ++ "-" ++ padded 2 d.month ++ "-" ++ padded 2 d.day

def microsecondText (microsecond : Nat) : Text :=
  if microsecond = 0 then [] else '.' :: padded 6 microsecond

def TimeOfDay.text (t : TimeOfDay) : Text :=
  padded 2 t.hour ++ ":" ++ padded 2 t.minute ++ ":" ++ padded 2 t.second ++
    microsecondText t.microsecond

def offsetText : Option Int → Text
  | none => []
  | some offset =>
    let seconds := offset.natAbs / 1000000
    let microsecond := offset.natAbs % 1000000
    let rest : Text :=
      if seconds % 60 = 0 ∧ microsecond = 0 then []
      else ":" ++ padded 2 (seconds % 60) ++ microsecondText microsecond
    (if offset < 0 then "-" else "+") ++ padded 2 (seconds / 3600) ++ ":" ++
      padded 2 (seconds / 60 % 60) ++ rest

def Day.length : Nat := 86400000000

def TimeOfDay.microseconds (t : TimeOfDay) : Nat :=
  (t.hour * 3600 + t.minute * 60 + t.second) * 1000000 + t.microsecond

def TimeOfDay.ofMicroseconds (n : Nat) : TimeOfDay :=
  let seconds := n / 1000000
  ⟨seconds / 3600, seconds / 60 % 60, seconds % 60, n % 1000000⟩

namespace Moment

def text (separator : Char) (m : Moment) : Text :=
  m.day.text ++ [separator] ++ m.time.text ++ offsetText m.offset

def wall (m : Moment) : Nat := m.day.number * Day.length + m.time.microseconds

structure OutOfRange where
deriving DecidableEq, Repr

def OutOfRange.message (_ : OutOfRange) : Text := "date value out of range"

def calendarEnd : Nat := Day.limit * Day.length

def inRange (microseconds : Int) : Except OutOfRange Nat :=
  if 0 ≤ microseconds ∧ microseconds < calendarEnd then .ok microseconds.toNat else .error ⟨⟩

def ofWall (wall : Nat) (offset : Int) (home : Text) : Moment :=
  { day := Day.ofNumber (wall / Day.length)
    time := TimeOfDay.ofMicroseconds (wall % Day.length)
    offset := some offset
    home := some home }

end Moment

/-! Reading the usual written forms. -/

def readNumbers (separator : Char) (text : Text) : List Nat :=
  (Text.split separator text).map Text.toNat

def Day.read? (text : Text) : Option Day :=
  match readNumbers '-' text with
  | [year, month, day] => some ⟨year, month, day⟩
  | _ => none

def TimeOfDay.read? (text : Text) : Option TimeOfDay :=
  match readNumbers ':' text with
  | [hour, minute] => some { hour, minute, second := 0 }
  | [hour, minute, second] => some { hour, minute, second }
  | _ => none

def Moment.readTime? (text : Text) : Option (TimeOfDay × Option Int) :=
  let isSign (c : Char) : Bool := c == '+' || c == '-'
  let clock := text.takeWhile (!isSign ·)
  match TimeOfDay.read? clock, text.dropWhile (!isSign ·) with
  | some time, [] => some (time, none)
  | some time, sign :: offset =>
    (TimeOfDay.read? offset).map fun o =>
      (time, some (if sign = '-' then -(o.microseconds : Int) else o.microseconds))
  | none, _ => none

def Moment.read? (text : Text) : Option Moment :=
  let (day, rest) := Text.partition 'T' text
  match Day.read? day, Moment.readTime? rest with
  | some day, some (time, offset) => some { day, time, offset }
  | _, _ => none

end Phrasebook
