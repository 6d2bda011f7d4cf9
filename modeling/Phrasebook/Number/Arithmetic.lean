import Phrasebook.Number.Decimal
import Phrasebook.Number.Shortest

/-!
Decimal arithmetic with a bounded number of significant digits: fitting a decimal into them,
bringing it to a fixed number of places, and dividing. Results that do not fit are rounded to the
nearest, a half to the even neighbour; some operations have no result at all. Very small results
have fewer digits, because the exponent of the last digit is bounded too.
-/
namespace Phrasebook.Decimal

def precision : Nat := 28

def largestLead : Int := 999999

/-- The least exponent of a leading digit with all the others behind it. -/
def leastLead : Int := -999999

def leastLast : Int := leastLead - precision + 1

inductive ArithmeticError
  | syntaxError
  | invalidOperation
  | overflow
deriving DecidableEq, Repr

def ArithmeticError.message : ArithmeticError → Text
  | syntaxError => "[<class 'decimal.ConversionSyntax'>]"
  | invalidOperation => "[<class 'decimal.InvalidOperation'>]"
  | overflow => "[<class 'decimal.Overflow'>]"

def rounded (coefficient : Nat) (exponent : Int) : Nat × Int :=
  let excess := digitCount coefficient - precision
  if excess = 0 then (coefficient, exponent)
  else
    let kept := roundHalfEven coefficient (Nat.pow 10 excess)
    if digitCount kept ≤ precision then (kept, exponent + excess)
    else (kept / 10, exponent + excess + 1)

def fit (coefficient : Nat) (exponent : Int) : Except ArithmeticError (Nat × Int) :=
  let (kept, power) := rounded coefficient exponent
  if kept ≠ 0 ∧ largestLead < leadingExponent kept power then .error .overflow
  else if kept = 0 then .ok (0, 0)
  else .ok (stripZeros (digitCount kept) kept power)

/-- How many units of the last of some places a coefficient with an exponent makes. That the
digits fit the precision is required unless digits are dropped. -/
def toPlaces (places : Nat) (coefficient : Nat) (exponent : Int) :
    Except ArithmeticError Nat :=
  let shift := exponent + places
  if coefficient = 0 then .ok 0
  else if 0 ≤ shift then
    if precision < digitCount coefficient + shift then .error .invalidOperation
    else .ok (coefficient * Nat.pow 10 shift.toNat)
  else if digitCount coefficient < -shift then .ok 0
  else .ok (roundHalfEven coefficient (Nat.pow 10 (-shift).toNat))

def stripPlaces : Nat → Nat → Int → Nat × Int
  | 0, coefficient, exponent => (coefficient, exponent)
  | fuel + 1, coefficient, exponent =>
    if exponent < 0 ∧ coefficient % 10 = 0 then stripPlaces fuel (coefficient / 10) (exponent + 1)
    else (coefficient, exponent)

/-- A coefficient and its exponent within all bounds. What is too large is no result; what is too
small keeps the digits down to the least exponent. -/
def settle (coefficient : Nat) (exponent : Int) : Except ArithmeticError (Nat × Int) :=
  if exponent < leastLast ∧ leadingExponent coefficient exponent < leastLead then
    .ok (roundHalfEven coefficient (Nat.pow 10 (leastLast - exponent).toNat), leastLast)
  else
    let (kept, power) := rounded coefficient exponent
    if largestLead < leadingExponent kept power then .error .overflow else .ok (kept, power)

/-- The quotient of two positive numbers to one digit more than the precision at least. A remainder
behind it is kept in mind by making the last digit neither nought nor five; an exact quotient has
no places that it does not need. -/
def longQuotient (dividend divisor : Nat) : Nat × Int :=
  let shift : Int := digitCount divisor + precision + 1 - digitCount dividend
  let num := dividend * Nat.pow 10 shift.toNat
  let den := divisor * Nat.pow 10 (-shift).toNat
  let quotient := num / den
  if num % den = 0 then stripPlaces (digitCount quotient) quotient (-shift)
  else (if quotient % 5 = 0 then quotient + 1 else quotient, -shift)

def divide (dividend : Int) (divisor : Nat) : Except ArithmeticError Decimal :=
  if dividend = 0 then .ok (finite false 0 0)
  else do
    let (coefficient, exponent) := longQuotient dividend.natAbs divisor
    let (kept, power) ← settle coefficient exponent
    return finite (dividend < 0) kept power

end Phrasebook.Decimal
