import Phrasebook.Diagnostic.Rendering
import Phrasebook.Diagnostic.Wording
import Phrasebook.Interval.Scanner

/-!
The faults that the library reports about phrases, languages and formatting. A fault gives its
account either as a plain sentence or as a diagnostic, whose report is then its message, and
carries what the caller needs to go on.
-/
namespace Phrasebook

inductive Account
  | sentence (text : Text)
  | diagnostic (diagnostic : Diagnostic)
deriving DecidableEq, Repr

def Account.message : Account → Text
  | sentence text => text
  | diagnostic d => d.report

def Account.code? : Account → Option DiagnosticCode
  | sentence _ => none
  | diagnostic d => some d.code

inductive Fault
  | general (account : Account)
  | interval (account : Account) (text : Text) (position : Int)
  | translation (account : Account)
  | missing (account : Account) (key language : Text)
  | selection (account : Account) (text : Text) (count : Value) (language : Text)
  | locale (account : Account) (code : Text)
  | formatting (account : Account) (fallback : Text)
deriving DecidableEq, Repr

namespace Fault

/-- The broader groups that a fault can be handled as. -/
inductive Group
  | general
  | translation
  | badValue
  | failedLookup
deriving DecidableEq, Repr

def account : Fault → Account
  | general account => account
  | interval account .. => account
  | translation account => account
  | missing account .. => account
  | selection account .. => account
  | locale account .. => account
  | formatting account .. => account

def message (fault : Fault) : Text := fault.account.message

def code? (fault : Fault) : Option DiagnosticCode := fault.account.code?

def groups : Fault → List Group
  | general _ | formatting .. => [.general]
  | interval .. | locale .. => [.general, .badValue]
  | translation _ | selection .. => [.general, .translation]
  | missing .. => [.general, .translation, .failedLookup]

def ofMalformed (malformed : Interval.Malformed) : Fault :=
  .interval (.diagnostic (.invalidInterval malformed.text malformed.position)) malformed.text
    malformed.position

def missingTranslation (key language : Text) : Fault :=
  .missing (.diagnostic (.missingTranslation key language)) key language

def noPluralForm (diagnostic : Diagnostic) (text : Text) (count : Number) (language : Text) :
    Fault :=
  .selection (.diagnostic diagnostic) text (.number count) language

def badLanguageTag (language : Text) : Fault :=
  .locale (.diagnostic (.invalidLanguageTag language)) language

end Fault
end Phrasebook
