import Phrasebook.Number
import Phrasebook.OrderedMap
import Phrasebook.Placeholder.Token

/-!
Binding gives tokens their texts. Named values bind by their names; values without names bind to
the distinct tokens of the text in turn, leaving out reserved tokens, until either runs out. All
names and values that bind have to be written, those for tokens that the text does not hold too.
-/
namespace Phrasebook

/-- How a value reads inside a text: truth as `1` or nothing, a whole binary number without its
fraction, and nothing for nothing. -/
def Value.reading : Value → Text
  | absent => ""
  | number (.truth b) => if b then "1" else ""
  | number (.binary x) => if x.isWhole then Text.ofInt x.truncate else x.text
  | value => value.words

def Value.inserted (value : Value) : Except TooManyDigits Text := value.written value.reading

namespace Placeholder

/-- The values for the placeholders of a text. Some things are no collection of values. -/
inductive Args
  | none
  | named (entries : List (Value × Value))
  | positional (values : List Value)
  | unsuitable (kind : Text)
deriving DecidableEq, Repr

def place (key value : Value) : List (Value × Value) → List (Value × Value)
  | [] => [(key, value)]
  | entry :: rest =>
    if entry.1.sameKey key then (entry.1, value) :: rest else entry :: place key value rest

/-- Named values from pairs, of which a later one with the same key takes effect. -/
def Args.ofPairs (pairs : List (Value × Value)) : Except Value.NoKey Args :=
  if pairs.all (·.1.isKey) then
    .ok (.named (pairs.foldl (fun entries pair => place pair.1 pair.2 entries) []))
  else .error ⟨⟩

inductive Unbound
  | unsuitable (kind : Text)
  | tooManyDigits
deriving DecidableEq, Repr

def Unbound.message : Unbound → Text
  | unsuitable kind =>
    "Placeholder arguments must be a mapping or a sequence of values, got " ++ kind
  | tooManyDigits => TooManyDigits.message ⟨⟩

abbrev Table := OrderedMap Text

def entryOf (key : Except TooManyDigits Text) (value : Value) :
    Except TooManyDigits (Text × Text) := do
  return (← key, ← value.inserted)

def Table.ofNamed (entries : List (Value × Value)) : Except TooManyDigits Table :=
  (entries.mapM fun entry => entryOf (entry.1.toText.map wrap) entry.2).map OrderedMap.ofList

def freeTokens (text : Text) (reserved : List Text) : List Text :=
  (tokens text).filter fun token => !reserved.contains token

/-- Values without a token are not written. -/
def Table.ofPositional (text : Text) (reserved : List Text) (values : List Value) :
    Except TooManyDigits Table :=
  (((freeTokens text reserved).zip values).mapM fun entry => entryOf (.ok entry.1) entry.2).map
    OrderedMap.ofList

def table (text : Text) (args : Args) (reserved : List Text) : Except Unbound Table :=
  match args with
  | .none => .ok .empty
  | .named entries => (Table.ofNamed entries).mapError fun _ => .tooManyDigits
  | .positional values => (Table.ofPositional text reserved values).mapError fun _ => .tooManyDigits
  | .unsuitable kind => .error (.unsuitable kind)

end Placeholder
end Phrasebook
