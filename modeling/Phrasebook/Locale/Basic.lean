import Phrasebook.Fault
import Phrasebook.Formatting.Almanac
import Phrasebook.Locale.Tag

/-!
A locale is a language in a territory with what formatting needs to know besides: the time zone,
the currency and how many minor units make one of it. Building one checks all of this; the zones and
the currencies of the territories are looked up in an almanac.
-/
namespace Phrasebook

structure Locale where
  code : Text
  zone : Zone
  subUnit : Nat
  currency : Option Text

namespace Locale

/-- Two or three small letters, a hyphen or low line, and two capital letters. A line may end
after them. -/
def isCode (code : Text) : Bool :=
  let language := code.takeWhile Char.isLower
  (language.length == 2 || language.length == 3) &&
    match code.dropWhile Char.isLower with
    | separator :: a :: b :: tail =>
      (separator == '-' || separator == '_') && a.isUpper && b.isUpper &&
        (tail == [] || tail == ['\n'])
    | _ => false

def defaultZone : Text := "UTC"

def defaultSubUnit : Value := .number (.integer 100)

def invalidCode (code : Text) : Fault := .locale (.diagnostic (.invalidLocale code)) code

def invalidSubUnit (code : Text) (subUnit : Value) : Except TooManyDigits Fault := do
  let shown ← subUnit.shown
  return .locale (.sentence ("Currency sub-unit must be a positive integer, got " ++ shown)) code

def unknownZone (code zone : Text) : Fault :=
  .locale (.sentence ("Unknown timezone '" ++ zone ++ "' for locale " ++ code)) code

def unknownLanguage (language : Text) : Fault :=
  .locale (.diagnostic (.unknownLanguage language)) language

def territoryOf (code : Text) : Text := (Text.partition '_' code).2

def subUnit? : Value → Option Nat
  | .number (.integer n) => if 0 < n then some n.toNat else none
  | _ => none

inductive Refusal
  | fault (fault : Fault)
  | tooManyDigits
deriving DecidableEq, Repr

def refuse (fault : Except TooManyDigits Fault) : Except Refusal Locale :=
  match fault with
  | .ok fault => .error (.fault fault)
  | .error _ => .error .tooManyDigits

/-- The locale with a code. Without a currency it has that of its territory, if there is one. -/
def make (almanac : Almanac) (code : Value) (zone : Text) (subUnit : Value)
    (currency : Option Text) : Except Refusal Locale :=
  match code with
  | .text written =>
    if isCode written then
      let code := written.replace '-' '_'
      match subUnit? subUnit, almanac.zone? zone with
      | none, _ => refuse (invalidSubUnit code subUnit)
      | some _, none => refuse (.ok (unknownZone code zone))
      | some units, some zone =>
        .ok ⟨code, zone, units, currency <|> almanac.currency? (territoryOf code)⟩
    else refuse (.ok (invalidCode written))
  | _ => refuse (code.toText.map invalidCode)

def ofLanguage (almanac : Almanac) (language : Text) (zone : Text) (subUnit : Value) :
    Except Refusal Locale :=
  match homeTerritory? language with
  | none => refuse (.ok (unknownLanguage language))
  | some territory => make almanac (.text (language ++ "_" ++ territory)) zone subUnit none

def text (locale : Locale) : Text := locale.code

def language (locale : Locale) : Text := (Tag.languageAndTerritory locale.code).1

def territory (locale : Locale) : Text := territoryOf locale.code

end Locale
end Phrasebook
