import Phrasebook.Calendar.Moment

/-!
Time zones, and moments as the clocks of zones show them. A zone is known by its offsets. The zones
at hand follow rules: a standard offset, and for some a summer time that is an hour ahead from one
Sunday of the year to another. The changes take place at the same universal time every year.
-/
namespace Phrasebook

/-- The offset of a zone depends on the instant. For a clock on the wall there may be two offsets,
the later of which counts if that is said, or near the ends of the calendar none that can be told.
A time of the day has an offset only if no day is needed to tell it. -/
structure Zone where
  name : Text
  offsetAt : Nat → Int
  offsetAtWall : Nat → Bool → Except Moment.OutOfRange Int
  timeOffset? : Option Int

/-- A Sunday of a month and a second of that day, in universal time. The Sunday is the first one
on or after a day of the month. -/
structure Zone.Change where
  month : Nat
  earliest : Nat
  second : Nat
deriving DecidableEq, Repr

structure Zone.Summer where
  start : Zone.Change
  stop : Zone.Change
deriving DecidableEq, Repr

structure Zone.Rule where
  standard : Int
  summer : Option Zone.Summer := none
  steady : Bool := false
deriving DecidableEq, Repr

namespace Zone

def Change.instant (change : Change) (year : Nat) : Nat :=
  let first := Day.number ⟨year, change.month, change.earliest⟩
  (first + (6 - first % 7)) * 86400 + change.second

namespace Rule

def minutesAt (rule : Rule) (second : Nat) : Int :=
  match rule.summer with
  | none => rule.standard
  | some summer =>
    let year := (Day.ofNumber (second / 86400)).year
    if summer.start.instant year ≤ second ∧ second < summer.stop.instant year then
      rule.standard + 60
    else rule.standard

/-- The offset for a second of a clock on the wall. The hour that is skipped has the offset before
it, and of the hour that comes twice the first is meant, unless the later one is asked for: that
one goes by the offset behind the change in both cases. -/
def minutesAtWall (rule : Rule) (second : Nat) (later : Bool) : Int :=
  match rule.summer with
  | none => rule.standard
  | some summer =>
    let year := (Day.ofNumber (second / 86400)).year
    let ahead := if later then rule.standard else rule.standard + 60
    let start : Int := summer.start.instant year + ahead * 60
    let stop : Int := summer.stop.instant year + ahead * 60
    if start ≤ second ∧ second < stop then rule.standard + 60 else rule.standard

def steadyMinutes? (rule : Rule) : Option Int := if rule.steady then some rule.standard else none

end Rule

def minutes (n : Int) : Int := n * 60000000

def ofRule (name : Text) (rule : Rule) : Zone :=
  { name
    offsetAt := fun instant => minutes (rule.minutesAt (instant / 1000000))
    offsetAtWall := fun wall later => .ok (minutes (rule.minutesAtWall (wall / 1000000) later))
    timeOffset? := rule.steadyMinutes?.map minutes }

def rules : List (Text × Rule) :=
  [("UTC", { standard := 0, steady := true }),
    ("Asia/Tokyo", { standard := 540 }),
    ("Asia/Kolkata", { standard := 330 }),
    ("Europe/Berlin", { standard := 60, summer := some ⟨⟨3, 25, 3600⟩, ⟨10, 25, 3600⟩⟩ }),
    ("America/New_York",
      { standard := -300, summer := some ⟨⟨3, 8, 25200⟩, ⟨11, 1, 21600⟩⟩ })]

def all : List Zone := rules.map fun (name, rule) => ofRule name rule

def find? (name : Text) : Option Zone := all.find? fun zone => zone.name = name

end Zone

/-- The moment as a clock in the zone shows it. A moment without an offset is the wall time there
already, and one that is at home in the zone stays as it is. -/
def Moment.inZone (m : Moment) (zone : Zone) : Except Moment.OutOfRange Moment :=
  match m.offset with
  | none => do
    let offset ← zone.offsetAtWall m.wall m.later
    return { m with offset := some offset, home := some zone.name }
  | some offset =>
    if m.home = some zone.name then .ok m
    else do
      let instant ← inRange (m.wall - offset)
      let there := zone.offsetAt instant
      let wall ← inRange (instant + there)
      return ofWall wall there zone.name

structure ClockTime where
  time : TimeOfDay
  zoned : Bool := false
  offset : Option Int := none
deriving DecidableEq, Repr

namespace ClockTime

def text (t : ClockTime) : Text := t.time.text ++ offsetText t.offset

def inZone (t : ClockTime) (zone : Zone) : ClockTime := ⟨t.time, true, zone.timeOffset?⟩

end ClockTime
end Phrasebook
