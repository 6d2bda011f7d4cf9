import Phrasebook.Session.Basic

/-!
Actions on dictionaries: making them, filling them, and giving composites their children. A child
is refused if it is no dictionary or the composite itself, or if its place is none; every child that
is taken is logged.
-/
namespace Phrasebook.Session

def createSimple (locale : Text) (texts : List (Text × Text)) : Action DictionaryRef :=
  addDictionary (.simple locale (.ofList (Dictionary.plainEntries texts)))

def createForeign (lookup listing : List (Text × Text)) : Action DictionaryRef :=
  addDictionary (.foreign (.ofList lookup) (.ofList listing))

def emitAttached (child : DictionaryRef) (priority : Value) (children : Nat) : Action Unit := do
  match ← dictionary? child with
  | none => pure ()
  | some dictionary => emit (.attached dictionary.description priority children)

def gather (children : List DictionaryRef) : List Item → Action (List DictionaryRef)
  | [] => return children
  | .dictionary ref :: items => do
    let children := children ++ [ref]
    emitAttached ref .absent children.length
    gather children items
  | item :: _ => throw (.notDictionary item.kind)

def createComposite (locale : Text) (items : List Item) (texts : List (Text × Text)) :
    Action DictionaryRef := do
  let children ← gather [] items
  addDictionary (.composite locale (.ofList (Dictionary.plainEntries texts)) children)

def takeChild (composite : DictionaryRef) (children : List DictionaryRef) (child : DictionaryRef)
    (priority : Value) : Action Unit :=
  match Library.insertChild children child priority with
  | .error reason => throw (.noPlace reason)
  | .ok children => do
    modifyDictionary composite (Dictionary.withChildren children)
    emitAttached child priority children.length

/-- Give a composite one more child. Other dictionaries have no children. -/
def attach (composite : DictionaryRef) (item : Item) (priority : Value) : Action Unit := do
  match ← dictionary? composite, item with
  | some (.composite _ _ children), .dictionary child =>
    if child = composite then throw .containsItself
    else takeChild composite children child priority
  | some (.composite ..), item => throw (.notDictionary item.kind)
  | _, _ => refuse composite (.attribute "add_dictionary")

def childrenOf (ref : DictionaryRef) : Action (List DictionaryRef) := do
  match ← dictionary? ref with
  | some (.composite _ _ children) => return children
  | _ => refuse ref (.attribute "dictionaries")

def setText (ref : DictionaryRef) (key text : Text) (comment : Option Text) : Action Unit :=
  modifyDictionary ref fun dictionary => dictionary.setEntry key ⟨key, text, comment⟩

def updateTexts (ref : DictionaryRef) (texts : List (Text × Text)) : Action Unit :=
  modifyDictionary ref fun dictionary => dictionary.update texts

def replaceTexts (ref : DictionaryRef) (texts : List (Text × Text)) : Action Unit :=
  modifyDictionary ref fun dictionary => dictionary.replaceAll texts

def removeText (ref : DictionaryRef) (key : Text) : Action Bool := do
  let present := (← dictionary? ref).any fun dictionary => dictionary.entries.contains key
  modifyDictionary ref fun dictionary => dictionary.remove key
  return present

def getText (ref : DictionaryRef) (key : Text) : Action (Option Text) := do
  finite ((← get).library.lookup ref key)

def getEntry (ref : DictionaryRef) (key : Text) : Action (Option Entry) := do
  return (← dictionary? ref).bind fun dictionary => dictionary.entries.get? key

def allTexts (ref : DictionaryRef) : Action (OrderedMap Text) := do
  finite ((← get).library.listing ref)

/-- Whether a value is a key. A dictionary without children is asked with keys only. -/
def containsKey (ref : DictionaryRef) (key : Value) : Action Bool := do
  if !((← dictionary? ref).any Dictionary.isComposite) && !key.isKey then throw .unhashable
  finite ((← get).library.contains ref key.text?)

def countKeys (ref : DictionaryRef) : Action Nat := do
  finite ((← get).library.count ref)

end Phrasebook.Session
