import Phrasebook.Formatting.Almanac
import Phrasebook.Locale.Basic

/-!
Writing numbers, money, days and times in the way of a locale. Amounts of money are whole numbers
of minor units. What cannot be written is a fault that carries a text to be shown instead.
-/
namespace Phrasebook

/-- Why nothing was written. Running out of numbers or of the calendar is not a matter of the
locale, and neither is a day or a time where both are wanted. -/
inductive FormatError
  | fault (fault : Fault)
  | tooLarge
  | tooManyDigits
  | outOfRange
  | lacks (lack : Lack)
  | other (kind message : Text)
deriving DecidableEq, Repr

namespace Locale

def textOf (value : Value) : Except FormatError Text :=
  value.toText.mapError fun _ => .tooManyDigits

def conventions (almanac : Almanac) (locale : Locale) : Except Fault Conventions :=
  match almanac.conventions? (Tag.normalize locale.code) with
  | some c => .ok c
  | none => .error (invalidCode locale.code)

def failed (kind value fallback reason : Text) : FormatError :=
  .fault (.formatting (.diagnostic (.formattingFailed kind value reason)) fallback)

def conventionsFor (almanac : Almanac) (locale : Locale) (kind value fallback : Text) :
    Except FormatError Conventions :=
  (locale.conventions almanac).mapError fun fault => failed kind value fallback fault.message

def arithmeticError (kind value : Text) (e : Decimal.ArithmeticError) : FormatError :=
  match e with
  | .overflow => .tooLarge
  | _ => failed kind value value e.message

def formatNumber (almanac : Almanac) (locale : Locale) (value : Value) :
    Except FormatError Text := do
  let written ← textOf value
  let c ← locale.conventionsFor almanac "Number" written written
  (almanac.number c value).mapError (arithmeticError "Number" written)

def majorUnits (locale : Locale) (amount : Int) : Except Decimal.ArithmeticError Decimal :=
  Decimal.divide amount locale.subUnit

def formatMoney (almanac : Almanac) (locale : Locale) (amount : Int) :
    Except FormatError Text := do
  let value ← (locale.majorUnits amount).mapError fun _ => .tooLarge
  match locale.currency with
  | none =>
    let written ← textOf (.number (.integer amount))
    throw (failed "Currency" written value.text ("no currency configured for " ++ locale.code))
  | some currency =>
    let shown := currency ++ " " ++ value.text
    let c ← locale.conventionsFor almanac "Currency" shown shown
    (almanac.money c currency value).mapError (arithmeticError "Currency" shown)

def formatCurrency (almanac : Almanac) (locale : Locale) (amount : Value) :
    Except FormatError Text :=
  match amount with
  | .number (.integer n) => locale.formatMoney almanac n
  | _ => do
    let written ← textOf amount
    throw (.fault (.formatting (.diagnostic (.currencyAmountNotInteger amount)) written))

def zoneFor (almanac : Almanac) (locale : Locale) (name : Option Text) :
    Except FormatError Zone :=
  match name with
  | none => .ok locale.zone
  | some name =>
    match almanac.zone? name with
    | some zone => .ok zone
    | none => .error (failed "Timezone" name name "unknown timezone")

/-- The value as it is in the zone. A moment is moved there. A day or a time is left as it is,
except where both are to be written: then a time without a zone becomes one of the zone. -/
def localized (almanac : Almanac) (locale : Locale) (aspect : Aspect) (value : Temporal)
    (name : Option Text) : Except FormatError Temporal :=
  match aspect, value with
  | _, .moment m => do
    let zone ← locale.zoneFor almanac name
    let there ← (m.inZone zone).mapError fun _ => .outOfRange
    return .moment there
  | .both, .day _ => do
    let _ ← locale.zoneFor almanac name
    throw (.lacks Day.timeless)
  | .both, .time t => do
    let zone ← locale.zoneFor almanac name
    if t.zoned then throw (.lacks ClockTime.unmovable) else return .time (t.inZone zone)
  | _, value => return value

def mishapError (kind value fallback : Text) : Mishap → FormatError
  | .other kind message => .other kind message
  | mishap => failed kind value fallback mishap.message

def formatTemporal (almanac : Almanac) (locale : Locale) (aspect : Aspect) (value : Temporal)
    (zone : Option Text) : Except FormatError Text := do
  let there ← locale.localized almanac aspect value zone
  let shown := there.text ' '
  let fallback := there.text 'T'
  let c ← locale.conventionsFor almanac aspect.name shown fallback
  (almanac.write aspect c there).mapError (mishapError aspect.name shown fallback)

end Locale
end Phrasebook
