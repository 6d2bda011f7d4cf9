import Phrasebook.Message.Choice
import Phrasebook.Message.Review
import Phrasebook.Placeholder.Substitution
import Phrasebook.Session.Dictionaries

/-!
Translators resolve keys for a language. A translator looks into its chain, a composite dictionary;
a key that is not there is logged and told to the observer, and then either fails or stands for its
own text. Plural texts are resolved by a count, which is also the value of the placeholder for it.
What reads the translator or changes it does so under its lock.
-/
namespace Phrasebook.Session

/-- Letters and digits of ASCII, at least one, besides hyphens and low lines. -/
def isLanguageTag (language : Text) : Bool :=
  let core := language.filter fun c => c != '_' && c != '-'
  !core.isEmpty && core.all Char.isAlphanum

def checkLanguage (language : Text) : Action Unit :=
  if isLanguageTag language then pure () else throw (.fault (.badLanguageTag language))

inductive Source
  | one (item : Item)
  | many (items : List Item)
deriving DecidableEq, Repr

/-- The chain for a source. A composite on its own is the chain itself; an iterable is gone
through, and texts are no dictionaries. -/
def chainFor (language : Text) : Source → Action DictionaryRef
  | .many items => createComposite language items []
  | .one item =>
    match item with
    | .dictionary ref => do
      match ← dictionary? ref with
      | some (.composite ..) => return ref
      | _ => createComposite language [item] []
    | .absent => createComposite language [] []
    | .iterable _ size => createComposite language (List.replicate size (.other "str" "str")) []
    | .other _ name => throw (.notIterable name)

def translator? (ref : TranslatorRef) : Action (Option Translator) := do
  return (← get).translators[ref]?

def modifyTranslator (ref : TranslatorRef) (f : Translator → Translator) : Action Unit :=
  modify fun session => { session with translators := session.translators.modify ref f }

structure Options where
  silent : Bool := false
  threadSafe : Bool := false
  observer : Option Observer := none

def childCount (ref : DictionaryRef) : Action Nat := do
  return ((← dictionary? ref).elim [] Dictionary.children).length

def createTranslator (language : Text) (source : Source) (options : Options) :
    Action TranslatorRef := do
  checkLanguage language
  let chain ← chainFor language source
  let translator : Translator :=
    { language, silent := options.silent, chain, observer := options.observer,
      lock := if options.threadSafe then some {} else none }
  let ref ← modifyGet fun session =>
    (session.translators.length,
      { session with translators := session.translators ++ [translator] })
  emit (.started language (← childCount chain) options.silent options.threadSafe)
  return ref

def createSystemTranslator (settings : Tag.Settings) (source : Source) (options : Options) :
    Action TranslatorRef :=
  match Tag.system settings with
  | .error _ => throw .undetermined
  | .ok language => createTranslator language source options

def setLock (ref : TranslatorRef) (lock : Lock Unit) : Action Unit :=
  modifyTranslator ref fun translator => { translator with lock := some lock }

/-- Do something between acquiring the lock and releasing it, if there is a lock. -/
def guarded {α : Type} (ref : TranslatorRef) (acquire : Lock Unit → Except Failure (Lock Unit))
    (release : Lock Unit → Except Lock.Refusal (Lock Unit)) (body : Action α) : Action α := do
  match (← translator? ref).bind Translator.lock with
  | none => body
  | some lock =>
    setLock ref (← liftExcept (acquire lock))
    try body
    finally
      match (← translator? ref).bind Translator.lock with
      | none => pure ()
      | some held => setLock ref (← liftExcept ((release held).mapError .refused))
where
  liftExcept {β : Type} : Except Failure β → Action β
    | .ok b => pure b
    | .error e => throw e

def acquireRead (lock : Lock Unit) : Except Failure (Lock Unit) :=
  match lock.acquireRead () with
  | .granted lock => .ok lock
  | .wait => .error .blocked
  | .refused reason => .error (.refused reason)

def acquireWrite (lock : Lock Unit) : Except Failure (Lock Unit) :=
  match lock.registerWriter () with
  | .error reason => .error (.refused reason)
  | .ok registered =>
    match registered.admitWriter? () with
    | some lock => .ok lock
    | none => .error .blocked

def reading {α : Type} (ref : TranslatorRef) (body : Action α) : Action α :=
  guarded ref acquireRead (·.releaseRead ()) body

def writing {α : Type} (ref : TranslatorRef) (body : Action α) : Action α :=
  guarded ref acquireWrite (·.releaseWrite ()) body

def setLanguage (ref : TranslatorRef) (language : Text) : Action Unit := do
  checkLanguage language
  let previous := ((← translator? ref).map Translator.language).getD []
  writing ref (modifyTranslator ref fun translator => { translator with language })
  emit (.languageChanged previous language)

def setChain (ref : TranslatorRef) (source : Source) : Action Unit := do
  let language := ((← translator? ref).map Translator.language).getD []
  let chain ← writing ref do
    let chain ← chainFor language source
    modifyTranslator ref fun translator => { translator with chain }
    return chain
  match ← dictionary? chain with
  | none => pure ()
  | some dictionary => emit (.chainReplaced dictionary.description)

def chainOf (ref : TranslatorRef) : Action DictionaryRef := do
  return ((← translator? ref).map Translator.chain).getD 0

def attachToTranslator (ref : TranslatorRef) (item : Item) (priority : Value) : Action Unit :=
  writing ref do attach (← chainOf ref) item priority

def hasText (ref : TranslatorRef) (key : Text) : Action Bool :=
  reading ref do return (← getText (← chainOf ref) key).isSome

/-- Tell the observer of a translator what was missed. It is recorded in any case. -/
def observe (ref : TranslatorRef) (key language : Text) (observer : Observer) : Action Unit := do
  let missed := (← get).missed ++ [⟨ref, key, language⟩]
  modify fun session => { session with missed }
  match observer.complaint? missed with
  | none => pure ()
  | some message => throw (.observer message)

/-- The text of a key and the language. A silent translator takes the key for a text that is
missing. -/
def resolve (ref : TranslatorRef) (translator : Translator) (key : Text) :
    Action (Text × Text) := do
  let found ← reading ref (getText translator.chain key)
  match found with
  | some text => return (text, translator.language)
  | none =>
    emit (.notFound key translator.language)
    match translator.observer with
    | none => pure ()
    | some observer => observe ref key translator.language observer
    if translator.silent then return (key, translator.language)
    else throw (.fault (.missingTranslation key translator.language))

def lookup (ref : TranslatorRef) (key : Text) : Action (Text × Text) := do
  match ← translator? ref with
  | none => return (key, [])
  | some translator => resolve ref translator key

def tableFor (text : Text) (args : Placeholder.Args) (reserved : List Text) :
    Action Placeholder.Table :=
  match Placeholder.table text args reserved with
  | .ok table => pure table
  | .error (.unsuitable kind) => throw (.unsuitable kind)
  | .error .tooManyDigits => throw .tooManyDigits

def translate (ref : TranslatorRef) (key : Text) (args : Placeholder.Args) : Action Text := do
  let (text, _) ← lookup ref key
  let result := Placeholder.substitute text (← tableFor text args [])
  emit (.resolved key result)
  return result

def countToken : Text := "%count%"

def chooseText (text : Text) (count : Number) (language : Text) : Action Text := do
  match Message.selectFrom text count language with
  | .ok choice =>
    match choice.event? count language with
    | none => pure ()
    | some event => emit event
    return choice.text
  | .error (.malformed malformed) => throw (.fault (.ofMalformed malformed))
  | .error (.noForm diagnostic text count language) =>
    throw (.fault (.noPluralForm diagnostic text count language))
  | .error .incomparable => throw .incomparable
  | .error .tooManyDigits => throw .tooManyDigits

def insertedCount (count : Number) : Action Text :=
  match (Value.number count).inserted with
  | .ok text => pure text
  | .error _ => throw .tooManyDigits

def translatePlural (ref : TranslatorRef) (key : Text) (count : Number)
    (args : Placeholder.Args) : Action Text := do
  let (text, language) ← lookup ref key
  let choice ← chooseText text count language
  let table ← tableFor choice args [countToken]
  let inserted ← insertedCount count
  let result := Placeholder.substitute choice (table.set countToken inserted)
  emit (.resolvedPlural key count result)
  return result

def reviewText (ref : TranslatorRef) (key : Text) : Action Report := do
  let (text, language) ← lookup ref key
  let report := Message.review text language
  emit (.reviewed language report.errors.length report.warnings.length)
  return report

def describe (ref : TranslatorRef) : Action Text := do
  match ← translator? ref with
  | none => return []
  | some translator =>
    return "Translator(language=" ++ translator.language.quoted ++ ", dictionaries=" ++
      Text.ofNat (← childCount translator.chain) ++ ", silent=" ++
      (Number.truth translator.silent).numeral ++ ")"

end Phrasebook.Session
