import Phrasebook.Interval.Scanner
import Phrasebook.Text.Word

/-!
A plural message is a list of clauses parted by vertical bars. An explicit clause is bound to an
interval of counts; a standard clause is one of the language's plural forms, in their order, and
may carry a label of one character and a colon that is not part of its text.
-/
namespace Phrasebook

inductive Clause
  | explicit (interval : Interval) (text : Text)
  | standard (text : Text)
deriving DecidableEq, Repr

structure Message where
  source : Text
  clauses : List Clause
deriving DecidableEq, Repr

def dropLabel : Text → Text
  | c :: ':' :: rest => if Text.isWordChar c then Text.trimLeft rest else c :: ':' :: rest
  | segment => segment

/-- The clause that a segment is; its segment is trimmed already. -/
def Clause.read (segment : Text) : Except Interval.Malformed Clause :=
  match Interval.scan segment with
  | .error fault => .error fault
  | .ok none => .ok (.standard (dropLabel segment))
  | .ok (some (interval, cursor)) => .ok (.explicit interval (Text.trimLeft cursor.rest))

namespace Message

def segments (text : Text) : List Text := (Text.split '|' text).map Text.trim

def read (text : Text) : Except Interval.Malformed Message :=
  ((segments text).mapM Clause.read).map (Message.mk text)

def explicit (message : Message) : List (Interval × Text) :=
  message.clauses.filterMap fun
    | .explicit interval text => some (interval, text)
    | .standard _ => none

def standard (message : Message) : List Text :=
  message.clauses.filterMap fun
    | .explicit .. => none
    | .standard text => some text

theorem length_segments (text : Text) : (segments text).length = text.count '|' + 1 := by
  simp [segments, Text.length_split]

theorem length_explicit_add_length_standard (message : Message) :
    message.explicit.length + message.standard.length = message.clauses.length := by
  obtain ⟨source, clauses⟩ := message
  induction clauses with
  | nil => rfl
  | cons clause clauses ih =>
    cases clause <;> simp only [explicit, standard, List.filterMap_cons, List.length_cons] at ih ⊢ <;>
      omega

end Message
end Phrasebook
