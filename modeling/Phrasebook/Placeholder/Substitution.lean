import Phrasebook.Placeholder.Binding

/-!
Substitution goes through a text once from left to right. Where a key begins, the longest one that
does is replaced by its text, which is not looked at again; every other character stays. Empty
keys are ignored.
-/
namespace Phrasebook.Placeholder

/-- The entries in the order in which they are tried, the longest keys first. -/
def byLength (table : Table) : List (Text × Text) :=
  (table.entries.filter (·.1 ≠ [])).mergeSort fun a b => b.1.length ≤ a.1.length

def entryAt? (entries : List (Text × Text)) (text : Text) : Option (Text × Text) :=
  entries.find? fun entry => entry.1.isPrefixOf text

def replaceFrom (entries : List (Text × Text)) : Nat → Text → Text
  | _, [] => []
  | skip + 1, _ :: rest => replaceFrom entries skip rest
  | 0, c :: rest =>
    match entryAt? entries (c :: rest) with
    | some (key, value) => value ++ replaceFrom entries (key.length - 1) rest
    | none => c :: replaceFrom entries 0 rest

def substitute (text : Text) (table : Table) : Text := replaceFrom (byLength table) 0 text

def bind (text : Text) (args : Args) : Except Unbound Text :=
  (table text args []).map (substitute text)

end Phrasebook.Placeholder
