import Phrasebook.Diagnostic.Wording
import Phrasebook.Interval.Scanner
import Phrasebook.Message.Basic
import Phrasebook.PluralRule
import Phrasebook.Report

/-!
Reviewing a message without resolving it. Every malformed segment is an error. A warning is given
for an interval that was declared before, written with other white space or not, and when the
number of standard clauses is not the number of plural forms of the language.
-/
namespace Phrasebook.Message

def scans (text : Text) : List (Except Interval.Malformed (Option (Interval × Cursor))) :=
  (segments text).map Interval.scan

def malformedError (fault : Interval.Malformed) (segment : Nat) : Report.Error where
  code := DiagnosticCode.invalidInterval.name
  message := (Diagnostic.invalidInterval fault.text fault.position).message
  content := fault.text
  column := some (fault.position + 1)
  segment := some segment

def reviewErrors (text : Text) : List Report.Error :=
  (scans text).zipIdx.filterMap fun
    | (.error fault, segment) => some (malformedError fault segment)
    | _ => none

def writtenIntervals (text : Text) : List Text :=
  (scans text).filterMap fun
    | .ok (some (interval, _)) => some interval.source
    | _ => none

def standardCount (text : Text) : Nat :=
  (scans text).countP fun
    | .ok none => true
    | _ => false

def warningOf (diagnostic : Diagnostic) (context : Option Text) : Report.Warning :=
  ⟨diagnostic.code.name, diagnostic.message, context⟩

/-- Warnings for the intervals that were seen before, white space left out of account. -/
def duplicateWarnings (seen : List Text) : List Text → List Report.Warning
  | [] => []
  | source :: rest =>
    let key := Text.squeeze source
    if key ∈ seen then
      warningOf (.duplicateInterval source) (some key) :: duplicateWarnings seen rest
    else duplicateWarnings (key :: seen) rest

def formCountWarnings (text language : Text) : List Report.Warning :=
  let found := standardCount text
  let expected := pluralForms language
  if 1 < (segments text).length ∧ found ≠ 0 ∧ found ≠ expected then
    [warningOf (.pluralFormCountMismatch found expected language) none]
  else []

def review (text language : Text) : Report where
  errors := reviewErrors text
  warnings := duplicateWarnings [] (writtenIntervals text) ++ formCountWarnings text language

end Phrasebook.Message
