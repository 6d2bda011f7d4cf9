import Phrasebook.Number
import Phrasebook.Number.Arithmetic

/-!
The numeral of a number in the way of a place: a mark before the decimals and marks between groups
of digits. The numeral is found for the magnitude; where the sign goes is a matter of the caller.
-/
namespace Phrasebook

/-- How numerals are written. Groups count from the right; all but the last may be shorter. -/
structure NumeralMarks where
  decimal : Text
  group : Text
  laterGroups : Nat := 3
deriving DecidableEq, Repr

namespace NumeralMarks

def groupReversed (mark : Text) (size later : Nat) : Nat → Text → Text
  | 0, reversed => reversed.reverse
  | fuel + 1, reversed =>
    if reversed.length ≤ size then reversed.reverse
    else
      groupReversed mark later later fuel (reversed.drop size) ++ mark ++
        (reversed.take size).reverse

def grouped (marks : NumeralMarks) (digits : Text) : Text :=
  groupReversed marks.group 3 marks.laterGroups digits.length digits.reverse

end NumeralMarks

namespace Numeral

structure Places where
  least : Nat
  most : Nat
deriving DecidableEq, Repr

def trimDecimals (least : Nat) (decimals : Text) : Text :=
  let needed := (decimals.reverse.dropWhile (· == '0')).length
  decimals.take (max least needed)

def ofUnits (marks : NumeralMarks) (places : Places) (units : Nat) : Text :=
  let whole := Text.ofNat (units / Nat.pow 10 places.most)
  let digits := Text.ofNat (units % Nat.pow 10 places.most)
  let all := List.replicate (places.most - digits.length) '0' ++ digits
  let decimals := if places.most = 0 then [] else trimDecimals places.least all
  marks.grouped whole ++ if decimals = [] then [] else marks.decimal ++ decimals

/-- The numeral of a decimal's magnitude. The text of what is not a number, with its own sign,
counts as its digits. -/
def ofMagnitude (marks : NumeralMarks) (places : Places) (d : Decimal) :
    Except Decimal.ArithmeticError Text :=
  match d with
  | .finite _ coefficient exponent => do
    let (kept, power) ← Decimal.fit coefficient exponent
    return ofUnits marks places (← Decimal.toPlaces places.most kept power)
  | .infinite _ => .ok "∞"
  | .nan _ false _ => .ok (marks.grouped d.text)
  | .nan _ true _ => .error .invalidOperation

def decimalOf (value : Value) : Except Decimal.ArithmeticError Decimal :=
  match value with
  | .number (.decimal d) => .ok d
  | _ =>
    match Decimal.read value.words with
    | .ok d => .ok d
    | .error .form => .error .syntaxError
    | .error .range => .error .invalidOperation

/-- The numeral of a value, a minus sign before it if it is negative, with at most three
decimals. -/
def ofValue (marks : NumeralMarks) (value : Value) : Except Decimal.ArithmeticError Text := do
  let d ← decimalOf value
  let magnitude ← ofMagnitude marks ⟨0, 3⟩ d
  return Decimal.sign d.isNegative ++ magnitude

end Numeral
end Phrasebook
