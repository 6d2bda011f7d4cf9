import Phrasebook.Number

/-!
The log is a list of events. An event says what happened; its level, where it arose and its
sentence follow from that.
-/
namespace Phrasebook.Log

inductive Level
  | debug
  | info
  | warning
deriving DecidableEq, Repr

def Level.name : Level → Text
  | debug => "DEBUG"
  | info => "INFO"
  | warning => "WARNING"

inductive Origin
  | selection
  | review
  | dictionaries
  | translation
deriving DecidableEq, Repr

inductive Event
  | intervalMatched (interval : Text) (count : Number)
  | formSelected (index : Nat) (count : Number) (language : Text)
  | reviewed (language : Text) (errors warnings : Nat)
  | attached (dictionary : Text) (priority : Value) (children : Nat)
  | started (language : Text) (dictionaries : Nat) (silent threadSafe : Bool)
  | languageChanged (previous current : Text)
  | chainReplaced (chain : Text)
  | notFound (key language : Text)
  | resolved (key result : Text)
  | resolvedPlural (key : Text) (count : Number) (result : Text)
deriving DecidableEq, Repr

namespace Event

def level : Event → Level
  | started .. | languageChanged .. => .info
  | notFound .. => .warning
  | _ => .debug

def origin : Event → Origin
  | intervalMatched .. | formSelected .. => .selection
  | reviewed .. => .review
  | attached .. => .dictionaries
  | _ => .translation

def shownLength : Nat := 50

/-- The sentence of an event. An event with a number that cannot be written has none. -/
def message : Event → Except TooManyDigits Text
  | intervalMatched interval count =>
    count.text.map fun count => "Interval " ++ interval ++ " matched count " ++ count
  | formSelected index count language =>
    count.text.map fun count =>
      "Plural index " ++ Text.ofNat index ++ " selected for count " ++ count ++ " (" ++ language ++
        ")"
  | reviewed language errors warnings =>
    .ok ("Validated plural message for " ++ language ++ ": " ++ Text.ofNat errors ++ " errors, " ++
      Text.ofNat warnings ++ " warnings")
  | attached dictionary priority children =>
    let place := if priority = .absent then .ok "end" else priority.toText
    place.map fun place =>
      "Dictionary " ++ dictionary ++ " registered at position " ++ place ++ " of " ++
        Text.ofNat children
  | started language dictionaries silent threadSafe =>
    .ok ("Translator initialized for language: " ++ language ++ " (dictionaries=" ++
      Text.ofNat dictionaries ++ ", silent=" ++ (Number.truth silent).numeral ++
      ", thread_safe=" ++ (Number.truth threadSafe).numeral ++ ")")
  | languageChanged previous current =>
    .ok ("Translator language changed: " ++ previous ++ " -> " ++ current)
  | chainReplaced chain => .ok ("Translator dictionary chain replaced: " ++ chain)
  | notFound key language =>
    .ok ("Translation '" ++ key ++ "' not found for language '" ++ language ++ "'")
  | resolved key result => .ok ("Resolved '" ++ key ++ "': " ++ result.take shownLength)
  | resolvedPlural key count result =>
    count.text.map fun count =>
      "Resolved '" ++ key ++ "' for count " ++ count ++ ": " ++ result.take shownLength

end Event
end Phrasebook.Log
