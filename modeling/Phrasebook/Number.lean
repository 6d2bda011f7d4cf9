import Phrasebook.Number.Decimal
import Phrasebook.Number.Shortest
import Phrasebook.Text.Quoted

/-!
A number is a truth value counting as one or nothing, an integer, or a binary or decimal fraction.
All of them have a place on the number line, a decimal that of its nearest binary number. A value
is a number, a text or nothing. Each has a text, but an integer of very many digits cannot be
written.
-/
namespace Phrasebook

/-- How many digits an integer can have in a text. -/
def digitLimit : Nat := 4300

@[irreducible] def tooLong : Int := Int.ofNat (Nat.pow 10 digitLimit)

structure TooManyDigits where
deriving DecidableEq, Repr

def TooManyDigits.message (_ : TooManyDigits) : Text :=
  "Exceeds the limit (" ++ Text.ofNat digitLimit ++ " digits) for integer string conversion; " ++
    "use sys.set_int_max_str_digits() to increase the limit"

inductive Number
  | truth (b : Bool)
  | integer (n : Int)
  | binary (x : Binary64)
  | decimal (d : Decimal)
deriving DecidableEq, Repr

namespace Number

def numeral : Number → Text
  | truth true => "True"
  | truth false => "False"
  | integer n => Text.ofInt n
  | binary x => x.text
  | decimal d => d.text

/-- Whether a number can be written. Only integers can have too many digits: the other numbers are
written with an exponent, or with the digits that they have. -/
def isWritable : Number → Bool
  | integer n => digitCount n.natAbs ≤ digitLimit
  | _ => true

def text (number : Number) : Except TooManyDigits Text :=
  if number.isWritable then .ok number.numeral else .error ⟨⟩

theorem isWritable_integer_iff (n : Int) :
    (integer n).isWritable ↔ n.natAbs < Nat.pow 10 digitLimit := by
  rw [isWritable, decide_eq_true_iff, digitCount_le_iff (by decide)]

theorem not_isWritable_tooLong : (integer tooLong).isWritable = false := by
  have hself : ∀ n : Nat, ¬ (Int.ofNat n).natAbs < n := Nat.lt_irrefl
  rw [Bool.eq_false_iff, Ne, isWritable_integer_iff, tooLong]
  exact hself (Nat.pow 10 digitLimit)

def kind : Number → Text
  | truth _ => "bool"
  | integer _ => "int"
  | binary _ => "float"
  | decimal _ => "Decimal"

def ofBool (b : Bool) : Int := if b then 1 else 0

structure Incomparable where
deriving DecidableEq, Repr

def Incomparable.message (_ : Incomparable) : Text := "cannot convert signaling NaN to float"

def point : Number → Except Incomparable Point
  | truth b => .ok (.ofInt (ofBool b))
  | integer n => .ok (.ofInt n)
  | binary x => .ok x.point
  | decimal d =>
    match d.toBinary64? with
    | some x => .ok x.point
    | none => .error ⟨⟩

/-- The number with its fraction cut off. Integers, infinities and NaN stay as they are, and so
does a decimal that is beyond the binary numbers. -/
def whole (number : Number) : Except Incomparable Number :=
  match number with
  | truth _ | integer _ => .ok number
  | binary x => .ok (if x.isFinite then integer x.truncate else number)
  | decimal d =>
    match d.toBinary64? with
    | some x => .ok (if x.isFinite then integer d.truncate else number)
    | none => .error ⟨⟩

def quantity : Number → Decimal
  | truth b => (Decimal.ofInt (ofBool b)).normalized
  | integer n => (Decimal.ofInt n).normalized
  | binary x => (Decimal.ofBinary64 x).normalized
  | decimal d => d.normalized

end Number

inductive Value
  | absent
  | text (text : Text)
  | number (number : Number)
deriving DecidableEq, Repr

namespace Value

def isWritable : Value → Bool
  | number n => n.isWritable
  | _ => true

def written (value : Value) (words : Text) : Except TooManyDigits Text :=
  if value.isWritable then .ok words else .error ⟨⟩

def words : Value → Text
  | absent => "None"
  | text t => t
  | number n => n.numeral

def toText (value : Value) : Except TooManyDigits Text := value.written value.words

/-- The text of a value inside a message that quotes texts and marks decimals. -/
def shown (value : Value) : Except TooManyDigits Text :=
  value.written <|
    match value with
    | text t => t.quoted
    | number (.decimal d) => "Decimal('" ++ d.text ++ "')"
    | _ => value.words

def kind : Value → Text
  | absent => "NoneType"
  | text _ => "str"
  | number n => n.kind

def text? : Value → Option Text
  | text t => some t
  | _ => none

def fullKind : Value → Text
  | number (.decimal _) => "decimal.Decimal"
  | value => value.kind

def isKey : Value → Bool
  | number (.decimal (.nan _ true _)) => false
  | _ => true

structure NoKey where
deriving DecidableEq, Repr

def NoKey.message (_ : NoKey) : Text := "Cannot hash a signaling NaN value"

/-- Whether two values are the same key of a mapping: numbers are by their quantity, and what is
not a number is the same as nothing else. -/
def sameKey : Value → Value → Bool
  | absent, absent => true
  | text a, text b => a == b
  | number a, number b => !a.quantity.isNan && a.quantity == b.quantity
  | _, _ => false

theorem written_of_isWritable {value : Value} (h : value.isWritable) (words : Text) :
    value.written words = .ok words :=
  if_pos h

theorem written_of_not_isWritable {value : Value} (h : value.isWritable = false)
    (words : Text) : value.written words = .error ⟨⟩ :=
  if_neg (Bool.eq_false_iff.1 h)

end Value
end Phrasebook
