import Phrasebook.Dictionary.Library
import Phrasebook.Fault
import Phrasebook.Lack
import Phrasebook.Lock.Basic
import Phrasebook.Locale.Tag
import Phrasebook.Log
import Phrasebook.Placeholder.Binding

/-!
A session is a library of dictionaries and the translators that look into it, with the log and the
record of what was missed. An action changes the session and gives a value or fails; what it has
logged or recorded by then stays.
-/
namespace Phrasebook

abbrev TranslatorRef := Nat

structure Miss where
  translator : TranslatorRef
  key : Text
  language : Text
deriving DecidableEq, Repr

/-- Who is told of missing texts. What was told by then, the last miss included, is all that
decides whether telling fails and with which words. -/
structure Observer where
  complaint? : List Miss → Option Text

/-- The lock of a translator, if it has one, is shared by the single thread of the session. -/
structure Translator where
  language : Text
  silent : Bool
  chain : DictionaryRef
  lock : Option (Lock Unit)
  observer : Option Observer

structure Session where
  library : Library := {}
  translators : List Translator := []
  log : List Log.Event := []
  missed : List Miss := []

inductive Failure
  | fault (fault : Fault)
  | notDictionary (kind : Text)
  | notIterable (kind : Text)
  | containsItself
  | noPlace (reason : Library.NoPlace)
  | lacks (lack : Lack)
  | unhashable
  | endless
  | unsuitable (kind : Text)
  | incomparable
  | tooManyDigits
  | observer (message : Text)
  | undetermined
  | refused (reason : Lock.Refusal)
  | blocked
deriving DecidableEq, Repr

def Failure.message : Failure → Text
  | fault f => f.message
  | notDictionary kind => "Expected a Dictionary, got " ++ kind
  | notIterable kind => "'" ++ kind ++ "' object is not iterable"
  | containsItself => "A CompositeDictionary cannot contain itself"
  | noPlace reason => reason.message
  | lacks lack => lack.message
  | unhashable => Value.NoKey.message ⟨⟩
  | endless => Endless.message ⟨⟩
  | unsuitable kind => Placeholder.Unbound.message (.unsuitable kind)
  | incomparable => Number.Incomparable.message ⟨⟩
  | tooManyDigits => TooManyDigits.message ⟨⟩
  | observer message => message
  | undetermined => Tag.Undetermined.message ⟨⟩
  | refused reason => reason.message
  | blocked => "The thread would wait for itself"

abbrev Action := ExceptT Failure (StateM Session)

/-- Something that is offered as a dictionary. Going through an iterable gives texts. -/
inductive Item
  | dictionary (ref : DictionaryRef)
  | absent
  | iterable (kind : Text) (size : Nat)
  | other (kind name : Text)
deriving DecidableEq, Repr

namespace Item

def kind : Item → Text
  | dictionary _ => "Dictionary"
  | absent => "NoneType"
  | iterable kind _ => kind
  | other kind _ => kind

def isDictionary : Item → Bool
  | dictionary _ => true
  | _ => false

end Item

namespace Session

def emit (event : Log.Event) : Action Unit :=
  modify fun session => { session with log := session.log ++ [event] }

def finite {α : Type} (outcome : Except Endless α) : Action α :=
  match outcome with
  | .ok a => pure a
  | .error _ => throw .endless

def dictionary? (ref : DictionaryRef) : Action (Option Dictionary) := do
  return (← get).library.get? ref

def modifyDictionary (ref : DictionaryRef) (f : Dictionary → Dictionary) : Action Unit :=
  modify fun session => { session with library := session.library.modify ref f }

def addDictionary (dictionary : Dictionary) : Action DictionaryRef :=
  modifyGet fun session =>
    let (ref, library) := session.library.add dictionary
    (ref, { session with library })

def refuse {α : Type} (ref : DictionaryRef) (wanted : Lack.Wanted) : Action α := do
  throw (.lacks ⟨(← dictionary? ref).elim [] Dictionary.kind, wanted⟩)

def takeLog : Action (List Log.Event) :=
  modifyGet fun session => (session.log, { session with log := [] })

end Session
end Phrasebook
