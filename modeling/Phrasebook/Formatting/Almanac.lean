import Phrasebook.Calendar.Zone
import Phrasebook.Lack
import Phrasebook.Locale.Conventions
import Phrasebook.Locale.Territory

/-!
What has to be known of the world to make locales and to write in their ways: the zones by their
names, the currencies of territories, the conventions of places, and how these are followed. All
that is an almanac. The almanac at hand knows few zones, territories and places.
-/
namespace Phrasebook

inductive Temporal
  | day (d : Day)
  | time (t : ClockTime)
  | moment (m : Moment)
deriving DecidableEq, Repr

def Temporal.text (separator : Char) : Temporal → Text
  | day d => d.text
  | time t => t.text
  | moment m => m.text separator

inductive Aspect
  | day
  | time
  | both
deriving DecidableEq, Repr

def Aspect.name : Aspect → Text
  | day => "Date"
  | time => "Time"
  | both => "DateTime"

/-- How writing can fail. A failure of some other kind is not one to be reckoned with. -/
inductive Mishap
  | badValue (message : Text)
  | tooLarge (message : Text)
  | lacks (lack : Lack)
  | noKey (message : Text)
  | other (kind message : Text)
deriving DecidableEq, Repr

def Mishap.message : Mishap → Text
  | badValue message => message
  | tooLarge message => message
  | lacks lack => lack.message
  | noKey message => message
  | other _ message => message

structure Almanac where
  zone? : Text → Option Zone
  currency? : Text → Option Text
  conventions? : Text → Option Conventions
  number : Conventions → Value → Except Decimal.ArithmeticError Text
  money : Conventions → Text → Decimal → Except Decimal.ArithmeticError Text
  write : Aspect → Conventions → Temporal → Except Mishap Text

def Day.timeless : Lack := ⟨"datetime.date", .attribute "tzinfo"⟩

def ClockTime.dayless (part : Text) : Lack := ⟨"datetime.time", .attribute part⟩

def ClockTime.unmovable : Lack := ⟨"datetime.time", .attribute "astimezone"⟩

def TimeOfDay.midnight : TimeOfDay := { hour := 0, minute := 0, second := 0 }

namespace Conventions

variable (c : Conventions)

def dayText (d : Day) : Text :=
  c.day.flatMap fun
    | .day => Text.ofNat d.day
    | .paddedDay => padded 2 d.day
    | .month => Text.ofNat d.month
    | .paddedMonth => padded 2 d.month
    | .year => Text.ofNat d.year
    | .yearOfCentury => padded 2 (d.year % 100)
    | .literal text => text

def timeText (t : TimeOfDay) : Text :=
  c.time.flatMap fun
    | .hour => Text.ofNat t.hour
    | .paddedHour => padded 2 t.hour
    | .halfDayHour => Text.ofNat (if t.hour % 12 = 0 then 12 else t.hour % 12)
    | .minute => padded 2 t.minute
    | .marker => if t.hour < 12 then c.markers.1 else c.markers.2
    | .literal text => text

def bothText (d : Day) (t : TimeOfDay) : Text := c.dayText d ++ c.joint ++ c.timeText t

/-- A time has no day: the first part of it that the pattern asks for is missed, or it is meant to
be today if both are written. A day begins at midnight, but has no time on its own. -/
def write (today : Day) (aspect : Aspect) (value : Temporal) : Except Mishap Text :=
  match aspect, value with
  | .day, .day d => .ok (c.dayText d)
  | .day, .time _ => .error (.lacks (ClockTime.dayless c.firstPart))
  | .day, .moment m => .ok (c.dayText m.day)
  | .time, .day _ => .error (.lacks Day.timeless)
  | .time, .time t => .ok (c.timeText t.time)
  | .time, .moment m => .ok (c.timeText m.time)
  | .both, .day d => .ok (c.bothText d .midnight)
  | .both, .time t => .ok (c.bothText today t.time)
  | .both, .moment m => .ok (c.bothText m.day m.time)

def currencyPlaces (currency : Text) : Numeral.Places :=
  if currency = "JPY" then ⟨0, 0⟩ else ⟨2, 2⟩

def money (currency : Text) (amount : Decimal) : Except Decimal.ArithmeticError Text := do
  let numeral ← Numeral.ofMagnitude c.marks (currencyPlaces currency) amount
  return (if amount.isNegative then c.debit else c.credit).flatMap fun
    | .symbol => c.symbol currency
    | .amount => numeral
    | .literal text => text

end Conventions

/-- The almanac of the zones, territories and places at hand, on some day. -/
def Almanac.ofToday (today : Day) : Almanac where
  zone? := Zone.find?
  currency? := territoryCurrency?
  conventions? := Conventions.find?
  number c value := Numeral.ofValue c.marks value
  money := Conventions.money
  write aspect c value := c.write today aspect value

end Phrasebook
