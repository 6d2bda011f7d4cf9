import Phrasebook.Number.Binary64

/-!
The shortest decimal of a binary floating-point number is the one with the fewest significant
digits among those that read back as the number, and the nearest of these. If any decimal of a
given number of digits reads back then one of the two next to the number does, so only these
are tried, for one digit, two digits and so on; seventeen digits always suffice.
-/
namespace Phrasebook.Binary64

/-- The exponent of the leading digit of a positive finite number. No number is below
10⁻³²⁴, so its multiple by 10³²⁴ has the same digits before the point. -/
def leadingExponent (units : Nat) : Int :=
  (digitCount (units * Nat.pow 10 324 / unitsPerOne) : Int) - 325

def overPowerOfTen (units : Nat) (exponent : Int) : Nat × Nat :=
  if 0 ≤ exponent then (units, unitsPerOne * Nat.pow 10 exponent.toNat)
  else (units * Nat.pow 10 (-exponent).toNat, unitsPerOne)

/-- The multiple of a power of ten next to the number that reads back as it, the nearer one if
both do and the even one if they are equally near. -/
def decimalAt? (units : Nat) (exponent : Int) : Option Nat :=
  let (num, den) := overPowerOfTen units exponent
  let below := num / den
  let readsBack (digits : Nat) := ofScientific false digits exponent == finite false units
  let nearest := roundHalfEven num den
  let other := if nearest = below then below + 1 else below
  if readsBack nearest then some nearest
  else if readsBack other then some other
  else none

def shortest (units : Nat) : Nat × Int :=
  let lead := leadingExponent units
  let found := (List.range 17).findSome? fun (further : Nat) =>
    (decimalAt? units (lead - further)).map fun digits => (digits, lead - further)
  let (digits, exponent) := found.getD (0, 0)
  stripZeros (digitCount digits) digits exponent

/-- Numbers from 10⁻⁴ on and below 10¹⁶ are written out, with at least one decimal; the others
have an exponent of at least two digits. -/
def writeDigits (digits : Text) (lead : Int) : Text :=
  let count := digits.length
  if lead < -4 ∨ 16 ≤ lead then
    let fraction := if count ≤ 1 then [] else '.' :: digits.drop 1
    let power := Text.ofNat lead.natAbs
    digits.take 1 ++ fraction ++ [ 'e', if lead < 0 then '-' else '+'] ++
      List.replicate (2 - power.length) '0' ++ power
  else if lead < 0 then "0." ++ List.replicate (-lead - 1).toNat '0' ++ digits
  else
    let whole := lead.toNat + 1
    if count ≤ whole then digits ++ List.replicate (whole - count) '0' ++ ".0"
    else digits.take whole ++ ['.'] ++ digits.drop whole

def text : Binary64 → Text
  | nan => "nan"
  | infinite negative => (if negative then "-" else "") ++ ("inf" : Text)
  | finite negative units =>
    let sign : Text := if negative then "-" else ""
    if units = 0 then sign ++ "0.0"
    else
      let (digits, exponent) := shortest units
      sign ++ writeDigits (Text.ofNat digits) (exponent + digitCount digits - 1)

end Phrasebook.Binary64
