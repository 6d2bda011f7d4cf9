import Phrasebook.OrderedMap
import Phrasebook.Text.Quoted

/-!
A dictionary maps keys to texts for one locale. A composite one looks at its own entries first and
then at its children, which it refers to and never changes. A foreign dictionary has a look-up and
a listing of its own, which need not agree.
-/
namespace Phrasebook

/-- Dictionaries refer to one another by their place in a library. -/
abbrev DictionaryRef := Nat

structure Entry where
  key : Text
  text : Text
  comment : Option Text := none
deriving DecidableEq, Repr

inductive Dictionary
  | simple (locale : Text) (entries : OrderedMap Entry)
  | composite (locale : Text) (entries : OrderedMap Entry) (children : List DictionaryRef)
  | foreign (lookup listing : OrderedMap Text)

namespace Dictionary

def locale : Dictionary → Text
  | simple locale _ => locale
  | composite locale .. => locale
  | foreign .. => "zz_ZZ"

def kind : Dictionary → Text
  | simple .. => "ArrayDictionary"
  | composite .. => "CompositeDictionary"
  | foreign .. => "Dictionary"

def entries : Dictionary → OrderedMap Entry
  | simple _ entries => entries
  | composite _ entries _ => entries
  | foreign .. => .empty

def children : Dictionary → List DictionaryRef
  | composite _ _ children => children
  | _ => []

def isComposite : Dictionary → Bool
  | composite .. => true
  | _ => false

def withEntries (entries : OrderedMap Entry) : Dictionary → Dictionary
  | simple locale _ => simple locale entries
  | composite locale _ children => composite locale entries children
  | foreign lookup listing => foreign lookup listing

def withChildren (children : List DictionaryRef) : Dictionary → Dictionary
  | composite locale entries _ => composite locale entries children
  | dictionary => dictionary

def own? (dictionary : Dictionary) (key : Text) : Option Text :=
  match dictionary with
  | foreign lookup _ => lookup.get? key
  | _ => (dictionary.entries.get? key).map Entry.text

def ownTexts (dictionary : Dictionary) : OrderedMap Text :=
  match dictionary with
  | foreign _ listing => listing
  | _ => dictionary.entries.mapValues Entry.text

def plainEntries (texts : List (Text × Text)) : List (Text × Entry) :=
  texts.map fun entry => (entry.1, { key := entry.1, text := entry.2 })

def setEntry (dictionary : Dictionary) (key : Text) (entry : Entry) : Dictionary :=
  dictionary.withEntries (dictionary.entries.set key entry)

/-- Set many texts; remarks on the entries that were there are lost. -/
def update (dictionary : Dictionary) (texts : List (Text × Text)) : Dictionary :=
  dictionary.withEntries (dictionary.entries.setAll (plainEntries texts))

def replaceAll (dictionary : Dictionary) (texts : List (Text × Text)) : Dictionary :=
  dictionary.withEntries (OrderedMap.ofList (plainEntries texts))

def remove (dictionary : Dictionary) (key : Text) : Dictionary :=
  dictionary.withEntries (dictionary.entries.erase key)

def description (dictionary : Dictionary) : Text :=
  let size := if dictionary.isComposite then
      ", dictionaries=" ++ Text.ofNat dictionary.children.length
    else ""
  dictionary.kind ++ "(locale=" ++ dictionary.locale.quoted ++ ", entries=" ++
    Text.ofNat dictionary.entries.size ++ size ++ ")"

@[simp] theorem children_withEntries (dictionary : Dictionary) (entries : OrderedMap Entry) :
    (dictionary.withEntries entries).children = dictionary.children := by
  cases dictionary <;> rfl

@[simp] theorem own?_withChildren (dictionary : Dictionary) (children : List DictionaryRef)
    (key : Text) : (dictionary.withChildren children).own? key = dictionary.own? key := by
  cases dictionary <;> rfl

end Dictionary
end Phrasebook
