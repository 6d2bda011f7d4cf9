import Phrasebook.Text.Basic

/-!
A lack: a thing of some kind was asked for something that others have and it does not. That may be
an attribute, room for a new one, a length, or members.
-/
namespace Phrasebook

inductive Lack.Wanted
  | attribute (name : Text)
  | newAttribute (name : Text)
  | length
  | members
deriving DecidableEq, Repr

structure Lack where
  kind : Text
  wanted : Lack.Wanted
deriving DecidableEq, Repr

namespace Lack

def attributeMessage (kind name : Text) : Text :=
  "'" ++ kind ++ "' object has no attribute '" ++ name ++ "'"

def message (lack : Lack) : Text :=
  match lack.wanted with
  | .attribute name => attributeMessage lack.kind name
  | .newAttribute name =>
    attributeMessage lack.kind name ++ " and no __dict__ for setting new attributes"
  | .length => "object of type '" ++ lack.kind ++ "' has no len()"
  | .members => "argument of type '" ++ lack.kind ++ "' is not iterable"

end Lack
end Phrasebook
