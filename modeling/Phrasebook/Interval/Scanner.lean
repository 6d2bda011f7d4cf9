import Phrasebook.Interval.Basic
import Phrasebook.Text.Cursor

/-!
Reading an interval at the start of a text. A set lists numbers between braces; a range has two
endpoints between brackets, each of which includes its endpoint if it opens towards the range.
White space may stand at every joint. The scanner works on the text that is still to be read, and
where it gets stuck it returns that text, from which the position of the fault follows.
-/
namespace Phrasebook.Interval

/-- A text that begins like an interval and is none, with the position where reading stopped. -/
structure Malformed where
  text : Text
  position : Nat
deriving DecidableEq, Repr

def Malformed.leaving (text left : Text) : Malformed := ⟨text, text.length - left.length⟩

def unsigned? (negative : Bool) (text : Text) : Option (Binary64 × Text) :=
  let whole := text.takeWhile Char.isDigit
  if whole = [] then none
  else
    match text.dropWhile Char.isDigit with
    | '.' :: rest =>
      let fraction := rest.takeWhile Char.isDigit
      if fraction = [] then none
      else
        some (.ofScientific negative (Text.toNat (whole ++ fraction)) (-fraction.length),
          rest.dropWhile Char.isDigit)
    | rest => some (.ofScientific negative (Text.toNat whole) 0, rest)

def number? : Text → Option (Binary64 × Text)
  | '-' :: rest => unsigned? true rest
  | text => unsigned? false text

def infinity? : Text → Option (Binary64 × Text)
  | '-' :: 'I' :: 'n' :: 'f' :: rest => some (.infinite true, rest)
  | '+' :: 'I' :: 'n' :: 'f' :: rest => some (.infinite false, rest)
  | 'I' :: 'n' :: 'f' :: rest => some (.infinite false, rest)
  | _ => none

def endpoint? (text : Text) : Option (Binary64 × Text) := infinity? text <|> number? text

/-- Whether a number or an infinity begins here, be it finished or not. -/
def startsNumeric (text : Text) : Bool :=
  (infinity? text).isSome ||
    match text with
    | '-' :: c :: _ => c.isDigit
    | c :: _ => c.isDigit
    | [] => false

theorem length_dropWhile_le (p : Char → Bool) (text : Text) :
    (text.dropWhile p).length ≤ text.length :=
  (List.dropWhile_sublist p).length_le

theorem length_unsigned?_lt {negative : Bool} {text rest : Text} {x : Binary64}
    (h : unsigned? negative text = some (x, rest)) : rest.length < text.length := by
  unfold unsigned? at h
  dsimp only at h
  split at h
  · simp at h
  next hne =>
    have hlt : (text.dropWhile Char.isDigit).length < text.length := by
      cases text with
      | nil => simp at hne
      | cons c text =>
        by_cases hc : c.isDigit
        · simpa [hc] using Nat.lt_succ_of_le (length_dropWhile_le Char.isDigit text)
        · simp [hc] at hne
    split at h
    next after hdrop =>
      split at h
      · simp at h
      · obtain ⟨-, rfl⟩ := Prod.mk.inj (Option.some.inj h)
        have := length_dropWhile_le Char.isDigit after
        rw [hdrop, List.length_cons] at hlt
        omega
    next =>
      obtain ⟨-, rfl⟩ := Prod.mk.inj (Option.some.inj h)
      exact hlt

theorem length_number?_lt {text rest : Text} {x : Binary64} (h : number? text = some (x, rest)) :
    rest.length < text.length := by
  unfold number? at h
  split at h
  · have := length_unsigned?_lt h
    simp only [List.length_cons]
    omega
  · exact length_unsigned?_lt h

def members (text : Text) : Except Text (List Binary64 × Text) :=
  match _hnumber : number? (Text.trimLeft text) with
  | none => .error (Text.trimLeft text)
  | some (x, afterNumber) =>
    match _hjoint : Text.trimLeft afterNumber with
    | '\x7d' :: rest => .ok ([x], rest)
    | ',' :: rest => (members rest).map fun (xs, left) => (x :: xs, left)
    | stuck => .error stuck
termination_by text.length
decreasing_by
  have h1 := length_number?_lt _hnumber
  have h2 := Text.length_trimLeft_le text
  have h3 := Text.length_trimLeft_le afterNumber
  rw [_hjoint, List.length_cons] at h3
  omega

def endpoint (text : Text) : Except Text (Binary64 × Text) :=
  match endpoint? (Text.trimLeft text) with
  | none => .error (Text.trimLeft text)
  | some (x, rest) => .ok (x, Text.trimLeft rest)

def comma : Text → Except Text Text
  | ',' :: rest => .ok rest
  | stuck => .error stuck

/-- A closing bracket: the right endpoint is included if it closes in the usual direction. -/
def closing : Text → Except Text (Bool × Text)
  | ']' :: rest => .ok (true, rest)
  | '[' :: rest => .ok (false, rest)
  | stuck => .error stuck

def range (leftClosed : Bool) (text : Text) : Except Text (Shape × Text) := do
  let (left, afterLeft) ← endpoint text
  let afterComma ← comma afterLeft
  let (right, afterRight) ← endpoint afterComma
  let (rightClosed, rest) ← closing afterRight
  return (.range left right leftClosed rightClosed, rest)

/-- The shape that a text begins with. None is looked for unless an opening brace or bracket is
followed by the beginning of a number. -/
def shapeAt : Text → Except Text (Option (Shape × Text))
  | '\x7b' :: body =>
    if startsNumeric (Text.trimLeft body) then
      (members body).map fun (values, rest) => some (.members values, rest)
    else .ok none
  | '[' :: body =>
    if startsNumeric (Text.trimLeft body) then (range true body).map some else .ok none
  | ']' :: body =>
    if startsNumeric (Text.trimLeft body) then (range false body).map some else .ok none
  | _ => .ok none

def scan (text : Text) : Except Malformed (Option (Interval × Cursor)) :=
  let start := Text.trimLeft text
  match shapeAt start with
  | .error left => .error (.leaving text left)
  | .ok none => .ok none
  | .ok (some (shape, rest)) =>
    .ok (some (⟨start.take (start.length - rest.length), shape⟩,
      ⟨text, text.length - rest.length⟩))

def parse (text : Text) : Except Malformed Interval :=
  match scan text with
  | .error fault => .error fault
  | .ok none => .error (.leaving text (Text.trimLeft text))
  | .ok (some (interval, cursor)) =>
    let trailing := Text.trimLeft cursor.rest
    if trailing = [] then .ok interval else .error (.leaving text trailing)

inductive ContainsError
  | malformed (fault : Malformed)
  | incomparable
deriving DecidableEq, Repr

def textContains (text : Text) (number : Number) : Except ContainsError Bool :=
  match parse text with
  | .error fault => .error (.malformed fault)
  | .ok interval =>
    match interval.contains number with
    | .error _ => .error .incomparable
    | .ok answer => .ok answer

end Phrasebook.Interval
