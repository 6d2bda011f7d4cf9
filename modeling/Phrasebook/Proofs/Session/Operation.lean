import Phrasebook.Proofs.Session.IdleLock

/-!
The operations that a session offers, and the sessions that they lead to. An operation names the
objects that it is about, and these must be there; what it is asked with besides is free, and it
may fail.
-/
namespace Phrasebook.Session

inductive Operation
  | createSimple (locale : Text) (texts : List (Text × Text))
  | createForeign (lookup listing : List (Text × Text))
  | createComposite (locale : Text) (items : List Item) (texts : List (Text × Text))
  | attach (composite : DictionaryRef) (item : Item) (priority : Value)
  | setText (ref : DictionaryRef) (key text : Text) (comment : Option Text)
  | updateTexts (ref : DictionaryRef) (texts : List (Text × Text))
  | replaceTexts (ref : DictionaryRef) (texts : List (Text × Text))
  | removeText (ref : DictionaryRef) (key : Text)
  | createTranslator (language : Text) (source : Source) (options : Options)
  | createSystemTranslator (settings : Tag.Settings) (source : Source) (options : Options)
  | setLanguage (ref : TranslatorRef) (language : Text)
  | setChain (ref : TranslatorRef) (source : Source)
  | attachToTranslator (ref : TranslatorRef) (item : Item) (priority : Value)
  | hasText (ref : TranslatorRef) (key : Text)
  | translate (ref : TranslatorRef) (key : Text) (args : Placeholder.Args)
  | translatePlural (ref : TranslatorRef) (key : Text) (count : Number) (args : Placeholder.Args)
  | reviewText (ref : TranslatorRef) (key : Text)

inductive Answer
  | done
  | dictionary (ref : DictionaryRef)
  | translator (ref : TranslatorRef)
  | whether (answer : Bool)
  | text (text : Text)
  | report (report : Report)

namespace Operation

def action : Operation → Action Answer
  | createSimple locale texts => .dictionary <$> Session.createSimple locale texts
  | createForeign lookup listing => .dictionary <$> Session.createForeign lookup listing
  | createComposite locale items texts => .dictionary <$> Session.createComposite locale items texts
  | attach composite item priority => (fun _ => .done) <$> Session.attach composite item priority
  | setText ref key text comment => (fun _ => .done) <$> Session.setText ref key text comment
  | updateTexts ref texts => (fun _ => .done) <$> Session.updateTexts ref texts
  | replaceTexts ref texts => (fun _ => .done) <$> Session.replaceTexts ref texts
  | removeText ref key => .whether <$> Session.removeText ref key
  | createTranslator language source options =>
    .translator <$> Session.createTranslator language source options
  | createSystemTranslator settings source options =>
    .translator <$> Session.createSystemTranslator settings source options
  | setLanguage ref language => (fun _ => .done) <$> Session.setLanguage ref language
  | setChain ref source => (fun _ => .done) <$> Session.setChain ref source
  | attachToTranslator ref item priority =>
    (fun _ => .done) <$> Session.attachToTranslator ref item priority
  | hasText ref key => .whether <$> Session.hasText ref key
  | translate ref key args => .text <$> Session.translate ref key args
  | translatePlural ref key count args => .text <$> Session.translatePlural ref key count args
  | reviewText ref key => .report <$> Session.reviewText ref key

end Operation

def Offers (session : Session) (item : Item) : Prop :=
  ∀ ref, item = .dictionary ref → ref < session.library.size

def Source.items : Source → List Item
  | .one item => [item]
  | .many items => items

/-- Every object that an operation names is there. -/
def Names (session : Session) : Operation → Prop
  | .createSimple .. | .createForeign .. => True
  | .createComposite _ items _ => ∀ item ∈ items, session.Offers item
  | .attach composite item _ => composite < session.library.size ∧ session.Offers item
  | .setText ref .. | .updateTexts ref _ | .replaceTexts ref _ | .removeText ref _ =>
    ref < session.library.size
  | .createTranslator _ source _ | .createSystemTranslator _ source _ =>
    ∀ item ∈ source.items, session.Offers item
  | .setChain ref source =>
    ref < session.translators.length ∧ ∀ item ∈ source.items, session.Offers item
  | .attachToTranslator ref item _ => ref < session.translators.length ∧ session.Offers item
  | .setLanguage ref _ | .hasText ref _ | .translate ref _ _ | .translatePlural ref _ _ _
  | .reviewText ref _ => ref < session.translators.length

def after (session : Session) (operation : Operation) : Session :=
  (session.perform operation.action).2

/-- The sessions that operations on named objects lead to, from one without any object. -/
inductive Reachable : Session → Prop
  | start : Reachable {}
  | step {session : Session} (operation : Operation) :
      Reachable session → session.Names operation → Reachable (session.after operation)

end Phrasebook.Session
