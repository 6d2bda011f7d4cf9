import Phrasebook.Fault
import Phrasebook.Log
import Phrasebook.Message.Basic
import Phrasebook.PluralRule

/-!
Choosing the clause for a count. The fraction of the count is cut off first. The first explicit
clause whose interval contains it wins; else it is the standard clause at the language's plural
form; a message that is a single standard clause serves every count. A choice says how it was
made.
-/
namespace Phrasebook

inductive Choice
  | explicit (interval : Interval) (text : Text)
  | form (index : Nat) (text : Text)
  | only (text : Text)
deriving DecidableEq, Repr

namespace Choice

def text : Choice → Text
  | explicit _ text => text
  | form _ text => text
  | only text => text

def event? (choice : Choice) (count : Number) (language : Text) : Option Log.Event :=
  match choice with
  | explicit interval _ => some (.intervalMatched interval.source count)
  | form index _ => some (.formSelected index count language)
  | only _ => none

end Choice

namespace Message

def choose? (message : Message) (place : Point) (language : Text) : Option Choice :=
  match message.explicit.find? fun clause => clause.1.shape.contains place with
  | some (interval, text) => some (.explicit interval text)
  | none =>
    let index := (PluralFamily.ofLanguage language).index place
    match message.standard[index]? with
    | some text => some (.form index text)
    | none =>
      match message.clauses with
      | [.standard text] => some (.only text)
      | _ => none

inductive SelectError
  | malformed (malformed : Interval.Malformed)
  | noForm (diagnostic : Diagnostic) (text : Text) (count : Number) (language : Text)
  | incomparable
  | tooManyDigits
deriving DecidableEq, Repr

/-- The failure for want of a clause. Its diagnostic tells the count, which has to be written. -/
def noChoice (message : Message) (count : Number) (language : Text) : SelectError :=
  match Diagnostic.pluralFormNotFound message.source (.number count) language with
  | .ok diagnostic => .noForm diagnostic message.source count language
  | .error _ => .tooManyDigits

section NoChoice

variable {count : Number}

theorem noChoice_of_isWritable (h : count.isWritable) (message : Message) (language : Text) :
    ∃ diagnostic, message.noChoice count language =
      .noForm diagnostic message.source count language := by
  have hcount : (Value.number count).toText = .ok count.numeral := if_pos h
  unfold noChoice Diagnostic.pluralFormNotFound
  rw [hcount]
  exact ⟨_, rfl⟩

theorem noChoice_of_not_isWritable (h : count.isWritable = false) (message : Message)
    (language : Text) : message.noChoice count language = .tooManyDigits := by
  have hcount : (Value.number count).toText = .error ⟨⟩ := if_neg (Bool.eq_false_iff.1 h)
  unfold noChoice Diagnostic.pluralFormNotFound
  rw [hcount]
  rfl

end NoChoice

def select (message : Message) (count : Number) (language : Text) :
    Except SelectError Choice :=
  match count.whole with
  | .error _ => .error .incomparable
  | .ok whole =>
    match whole.point with
    | .error _ => .error .incomparable
    | .ok place =>
      match message.choose? place language with
      | some choice => .ok choice
      | none => .error (message.noChoice count language)

def selectFrom (text : Text) (count : Number) (language : Text) : Except SelectError Choice :=
  match read text with
  | .error malformed => .error (.malformed malformed)
  | .ok message => message.select count language

end Message
end Phrasebook
