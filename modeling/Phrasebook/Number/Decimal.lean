import Phrasebook.Number.Binary64
import Phrasebook.Text.Blank
import Phrasebook.Text.Digit

/-!
Decimal numbers keep their digits: `1.50` and `1.5` are the same quantity and different decimals.
A finite one is a sign, a coefficient and an exponent of ten. Reading accepts the digits of every
script; writing uses the exponent where the plain numeral would need many zeros.
-/
namespace Phrasebook

inductive Decimal
  | finite (negative : Bool) (coefficient : Nat) (exponent : Int)
  | infinite (negative : Bool)
  | nan (negative signaling : Bool) (payload : Nat)
deriving DecidableEq, Repr

namespace Decimal

/-- Why a text is no decimal: it has another form, or its exponent is beyond all bounds. -/
inductive ReadError
  | form
  | range
deriving DecidableEq, Repr

def isNegative : Decimal → Bool
  | finite negative .. => negative
  | infinite negative => negative
  | nan negative .. => negative

def isNan : Decimal → Bool
  | nan .. => true
  | _ => false

def ofInt (n : Int) : Decimal := finite (n < 0) n.natAbs 0

def leadingExponent (coefficient : Nat) (exponent : Int) : Int :=
  digitCount coefficient + exponent - 1

def maxExponent : Int := 999999999999999999

def minExponent : Int := -1999999999999999997

def bounded (negative : Bool) (coefficient : Nat) (exponent : Int) : Except ReadError Decimal :=
  let largest := if coefficient = 0 then exponent else leadingExponent coefficient exponent
  if maxExponent < largest ∨ exponent < minExponent then .error .range
  else .ok (finite negative coefficient exponent)

def signed (text : Text) : Bool × Text :=
  match text with
  | '-' :: rest => (true, rest)
  | '+' :: rest => (false, rest)
  | _ => (false, text)

def exponentPart? : Text → Option Int
  | [] => some 0
  | c :: rest =>
    let (negative, digits) := signed rest
    if c.toLower = 'e' ∧ digits ≠ [] ∧ digits.all Char.isDigit then
      some (if negative then -Text.toNat digits else Text.toNat digits)
    else none

def readNumeral (negative : Bool) (text : Text) : Except ReadError Decimal :=
  let whole := text.takeWhile Char.isDigit
  let afterWhole := text.dropWhile Char.isDigit
  let (fraction, afterFraction) :=
    match afterWhole with
    | '.' :: rest => (rest.takeWhile Char.isDigit, rest.dropWhile Char.isDigit)
    | _ => ([], afterWhole)
  match exponentPart? afterFraction with
  | none => .error .form
  | some power =>
    if whole ++ fraction = [] then .error .form
    else bounded negative (Text.toNat (whole ++ fraction)) (power - fraction.length)

def readPayload (negative signaling : Bool) (digits : Text) : Except ReadError Decimal :=
  if digits.all Char.isDigit then .ok (nan negative signaling (Text.toNat digits))
  else .error .form

/-- White space around the numeral and low lines in it are ignored, and every digit is taken for
its value. A character beyond ASCII that is no digit spoils the text. -/
def plainForm? (text : Text) : Option Text :=
  ((Text.trim text).filter (· != '_')).mapM fun c =>
    if c.toNat < 0x80 then some c
    else (Text.decimalDigit? c).map fun n => Char.ofNat (n + '0'.toNat)

def read (text : Text) : Except ReadError Decimal :=
  match plainForm? text with
  | none => .error .form
  | some plain =>
    let (negative, body) := signed plain
    let lower := body.map Char.toLower
    if lower = "inf" ∨ lower = "infinity" then .ok (infinite negative)
    else if ("snan" : Text).isPrefixOf lower then readPayload negative true (body.drop 4)
    else if ("nan" : Text).isPrefixOf lower then readPayload negative false (body.drop 3)
    else readNumeral negative body

def positional (coefficient : Nat) (exponent : Int) : Text :=
  let digits := Text.ofNat coefficient
  if 0 ≤ exponent then digits ++ List.replicate exponent.toNat '0'
  else
    let places := (-exponent).toNat
    let filled := List.replicate (places + 1 - digits.length) '0' ++ digits
    filled.take (filled.length - places) ++ ['.'] ++ filled.drop (filled.length - places)

/-- A decimal is written plainly if that invents no zero after its digits and puts at most five
between the point and them; every other is written with an exponent. -/
def magnitudeText (coefficient : Nat) (exponent : Int) : Text :=
  let lead := leadingExponent coefficient exponent
  if exponent ≤ 0 ∧ -6 ≤ lead then positional coefficient exponent
  else
    let digits := Text.ofNat coefficient
    let fraction := if digits.length ≤ 1 then [] else '.' :: digits.drop 1
    let power : Text := (if lead < 0 then "-" else "+") ++ Text.ofNat lead.natAbs
    digits.take 1 ++ fraction ++ "E" ++ power

def sign (negative : Bool) : Text := if negative then "-" else ""

def payloadText (payload : Nat) : Text := if payload = 0 then "" else Text.ofNat payload

def text : Decimal → Text
  | finite negative coefficient exponent => sign negative ++ magnitudeText coefficient exponent
  | infinite negative => sign negative ++ "Infinity"
  | nan negative signaling payload =>
    sign negative ++ (if signaling then "sNaN" else "NaN") ++ payloadText payload

/-- The nearest binary number; a signaling NaN has none. -/
def toBinary64? : Decimal → Option Binary64
  | finite negative coefficient exponent =>
    some (Binary64.ofScientific negative coefficient exponent)
  | infinite negative => some (.infinite negative)
  | nan _ false _ => some .nan
  | nan _ true _ => none

/-- The decimal without zeros at its end. Decimals of one quantity have one such form. -/
def normalized : Decimal → Decimal
  | finite negative coefficient exponent =>
    if coefficient = 0 then finite false 0 0
    else
      let (kept, power) := stripZeros (digitCount coefficient) coefficient exponent
      finite negative kept power
  | d => d

def ofBinary64 : Binary64 → Decimal
  | .nan => nan false false 0
  | .infinite negative => infinite negative
  | .finite negative units => finite negative (units * Nat.pow 5 1074) (-1074)

def truncate : Decimal → Int
  | finite negative coefficient exponent =>
    let whole : Int :=
      if 0 ≤ exponent then (coefficient * Nat.pow 10 exponent.toNat : Nat)
      else if leadingExponent coefficient exponent < 0 then 0
      else (coefficient / Nat.pow 10 (-exponent).toNat : Nat)
    if negative then -whole else whole
  | _ => 0

end Decimal
end Phrasebook
