import Phrasebook.Diagnostic.Basic
import Phrasebook.Position
import Phrasebook.Text.JsonString

/-!
Three renderings of a diagnostic: a report of several lines, a single line with code and sentence,
and a JSON object. A rendering may cut long texts; the sentence of a report is never cut. The
notes are the optional texts that are there and not empty.
-/
namespace Phrasebook

inductive Rendering.Style
  | report
  | line
  | json
deriving DecidableEq, Repr

structure Rendering where
  style : Rendering.Style := .report
  sanitize : Bool := false
  limit : Int := 100
deriving DecidableEq, Repr

structure Note where
  label : Text
  text : Text
deriving DecidableEq, Repr

namespace Diagnostic

def note? (label : Text) : Option Text → Option Note
  | none => none
  | some text => if text = [] then none else some ⟨label, text⟩

def notes (diagnostic : Diagnostic) : List Note :=
  [note? "key" diagnostic.key, note? "language" diagnostic.language,
    note? "help" diagnostic.hint].filterMap id

end Diagnostic

inductive JsonField
  | text (label text : Text)
  | number (label : Text) (n : Nat)
deriving DecidableEq, Repr

def JsonField.render : JsonField → Text
  | .text label content => label.jsonString ++ ": " ++ content.jsonString
  | .number label n => label.jsonString ++ ": " ++ Text.ofNat n

def jsonObject (fields : List JsonField) : Text :=
  ['\x7b'] ++ Text.join ", " (fields.map JsonField.render) ++ ['\x7d']

namespace Rendering

/-- A negative limit counts from the end of the text. -/
def clip (rendering : Rendering) (text : Text) : Text :=
  if !rendering.sanitize || text.length ≤ rendering.limit then text
  else text.take (position text.length rendering.limit) ++ "..."

def reportLines (rendering : Rendering) (diagnostic : Diagnostic) : List Text :=
  let head := diagnostic.severity.name ++ "[" ++ diagnostic.code.name ++ "]: " ++
    diagnostic.message
  let place := diagnostic.span.toList.map fun span => "  --> column " ++ Text.ofNat span.column
  let notes := diagnostic.notes.map fun note =>
    "  = " ++ note.label ++ ": " ++ rendering.clip note.text
  head :: place ++ notes

def jsonLabel (label : Text) : Text := if label = "help" then "hint" else label

def jsonFields (rendering : Rendering) (diagnostic : Diagnostic) : List JsonField :=
  let head : List JsonField :=
    [.text "code" diagnostic.code.name, .number "code_value" diagnostic.code.value,
      .text "severity" diagnostic.severity.name,
      .text "message" (rendering.clip diagnostic.message)]
  let place : List JsonField :=
    match diagnostic.span with
    | none => []
    | some span =>
      [.number "start" span.start, .number "end" span.stop, .number "column" span.column]
  let notes : List JsonField := diagnostic.notes.map fun note =>
    .text (jsonLabel note.label) (rendering.clip note.text)
  head ++ place ++ notes

def render (rendering : Rendering) (diagnostic : Diagnostic) : Text :=
  match rendering.style with
  | .report => Text.join "\n" (rendering.reportLines diagnostic)
  | .line => diagnostic.code.name ++ ": " ++ rendering.clip diagnostic.message
  | .json => jsonObject (rendering.jsonFields diagnostic)

/-- JSON objects stand on a line each, other renderings are parted by an empty line. -/
def separator (rendering : Rendering) : Text :=
  match rendering.style with
  | .json => "\n"
  | _ => "\n\n"

def renderAll (rendering : Rendering) (diagnostics : List Diagnostic) : Text :=
  Text.join rendering.separator (diagnostics.map rendering.render)

end Rendering

def Diagnostic.report (diagnostic : Diagnostic) : Text :=
  ({ style := .report } : Rendering).render diagnostic

end Phrasebook
