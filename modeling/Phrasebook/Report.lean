import Phrasebook.Text.Quoted

/-!
The outcome of reviewing a message: errors, which make it unusable, and warnings, which do not.
An error shows text of the message, which a report can cut or hide.
-/
namespace Phrasebook

structure Report.Error where
  code : Text
  message : Text
  content : Text
  column : Option Int := none
  segment : Option Int := none
deriving DecidableEq, Repr

structure Report.Warning where
  code : Text
  message : Text
  context : Option Text := none
deriving DecidableEq, Repr

structure Report where
  errors : List Report.Error := []
  warnings : List Report.Warning := []
deriving DecidableEq, Repr

namespace Report

/-- How much of the contents a report shows. Hiding them takes effect only on top of cutting. -/
structure Discretion where
  sanitize : Bool := false
  redact : Bool := false
deriving DecidableEq, Repr

def Discretion.shown (discretion : Discretion) (content : Text) : Text :=
  if !discretion.sanitize then content
  else if discretion.redact then "[content redacted]"
  else content.ellipsis 100

def Error.location (error : Error) : Text :=
  let parts : List Text :=
    (error.segment.toList.map fun n => "segment " ++ Text.ofInt n) ++
      error.column.toList.map fun n => "column " ++ Text.ofInt n
  if parts = [] then [] else " at " ++ Text.join ", " parts

def Error.text (error : Error) (discretion : Discretion) : Text :=
  "[" ++ error.code ++ "]" ++ error.location ++ ": " ++ error.message ++ " (content: " ++
    (discretion.shown error.content).quoted ++ ")"

def Warning.text (warning : Warning) : Text :=
  let suffix : Text :=
    match warning.context with
    | none | some [] => ""
    | some context => " (" ++ context ++ ")"
  "[" ++ warning.code ++ "]: " ++ warning.message ++ suffix

def isValid (report : Report) : Bool := report.errors.isEmpty

def codes (report : Report) : List Text :=
  ((report.errors.map Error.code ++ report.warnings.map Warning.code).mergeSort Text.le).eraseDups

def lines (report : Report) (discretion : Discretion) (withWarnings : Bool) : List Text :=
  let errors : List Text :=
    if report.errors = [] then []
    else
      ("Errors (" ++ Text.ofNat report.errors.length ++ "):") ::
        report.errors.map fun error => "  " ++ error.text discretion
  let warnings : List Text :=
    if report.warnings = [] ∨ withWarnings = false then []
    else
      ("Warnings (" ++ Text.ofNat report.warnings.length ++ "):") ::
        report.warnings.map fun warning => "  " ++ warning.text
  errors ++ warnings

def text (report : Report) (discretion : Discretion) (withWarnings : Bool) : Text :=
  let lines := report.lines discretion withWarnings
  if lines = [] then "Validation passed: no errors or warnings" else Text.join "\n" lines

end Report
end Phrasebook
