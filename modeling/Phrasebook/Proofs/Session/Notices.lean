import Phrasebook.Proofs.Session.Answering

/-!
A session tells of missing texts in two places: the log has a warning for each miss, and the
observers are told. Most of what is done in a session adds to neither. What does is looking up a
key, and this comes first where a text is asked for, so the rest of the question goes unnoticed.
-/
namespace Phrasebook.Session

def warnings (session : Session) : List Log.Event :=
  session.log.filter fun event => event.level = .warning

/-- An action warns of nothing and tells nobody of a miss. -/
def Unnoticed {α : Type} (action : Action α) : Prop :=
  ∀ session : Session, (session.perform action).2.warnings = session.warnings ∧
    (session.perform action).2.missed = session.missed

namespace Unnoticed

variable {α β : Type}

theorem pure (a : α) : Unnoticed (pure a : Action α) := fun _ => ⟨rfl, rfl⟩

theorem throw (failure : Failure) : Unnoticed (throw failure : Action α) := fun _ => ⟨rfl, rfl⟩

theorem bind {action : Action α} {next : α → Action β} (haction : Unnoticed action)
    (hnext : ∀ a, Unnoticed (next a)) : Unnoticed (action >>= next) := by
  intro session
  obtain ⟨hwarnings, hmissed⟩ := haction session
  rw [perform_bind]
  generalize session.perform action = outcome at hwarnings hmissed ⊢
  rcases outcome with ⟨failure | a, later⟩
  · exact ⟨hwarnings, hmissed⟩
  · obtain ⟨hwarnings', hmissed'⟩ := hnext a later
    exact ⟨hwarnings'.trans hwarnings, hmissed'.trans hmissed⟩

theorem map (f : α → β) {action : Action α} (haction : Unnoticed action) :
    Unnoticed (f <$> action) := by
  rw [map_eq_pure_bind]
  exact haction.bind fun a => pure (f a)

theorem emit {event : Log.Event} (hevent : event.level ≠ .warning) : Unnoticed (emit event) := by
  intro session
  have hnone : [event].filter (fun event => event.level = .warning) = [] := by simp [hevent]
  constructor
  · rw [perform_emit, warnings, List.filter_append, hnone, List.append_nil]
    rfl
  · rfl

theorem dictionary? (ref : DictionaryRef) : Unnoticed (dictionary? ref) := fun _ => ⟨rfl, rfl⟩

theorem modifyDictionary (ref : DictionaryRef) (f : Dictionary → Dictionary) :
    Unnoticed (modifyDictionary ref f) := fun _ => ⟨rfl, rfl⟩

theorem addDictionary (dictionary : Dictionary) : Unnoticed (addDictionary dictionary) :=
  fun _ => ⟨rfl, rfl⟩

theorem getText (ref : DictionaryRef) (key : Text) : Unnoticed (getText ref key) := by
  intro session
  rw [perform_getText]
  exact ⟨rfl, rfl⟩

theorem translator? (ref : TranslatorRef) : Unnoticed (translator? ref) := fun _ => ⟨rfl, rfl⟩

theorem modifyTranslator (ref : TranslatorRef) (f : Translator → Translator) :
    Unnoticed (modifyTranslator ref f) := fun _ => ⟨rfl, rfl⟩

theorem chainOf (ref : TranslatorRef) : Unnoticed (chainOf ref) := fun _ => ⟨rfl, rfl⟩

theorem setLock (ref : TranslatorRef) (lock : Lock Unit) : Unnoticed (setLock ref lock) :=
  modifyTranslator ref _

theorem liftExcept (outcome : Except Failure β) : Unnoticed (guarded.liftExcept outcome) := by
  cases outcome with
  | ok b => exact pure b
  | error failure => exact throw failure

theorem tryFinally {body : Action α} {cleanup : Action β} (hbody : Unnoticed body)
    (hcleanup : Unnoticed cleanup) : Unnoticed (tryFinally body cleanup) := by
  intro session
  obtain ⟨hwarnings, hmissed⟩ := hbody session
  obtain ⟨hwarnings', hmissed'⟩ := hcleanup (session.perform body).2
  rw [perform_tryFinally]
  rcases hlast : (session.perform body).2.perform cleanup with ⟨failure | b, last⟩ <;>
    rw [hlast] at hwarnings' hmissed' <;>
    exact ⟨hwarnings'.trans hwarnings, hmissed'.trans hmissed⟩

theorem guarded {body : Action α} (hbody : Unnoticed body) (ref : TranslatorRef)
    (acquire : Lock Unit → Except Failure (Lock Unit))
    (release : Lock Unit → Except Lock.Refusal (Lock Unit)) :
    Unnoticed (guarded ref acquire release body) := by
  refine bind (translator? ref) fun found => ?_
  split
  · exact hbody
  · refine bind (liftExcept _) fun held => bind (setLock ref held) fun _ => ?_
    refine tryFinally hbody (bind (translator? ref) fun found => ?_)
    split
    · exact pure _
    · exact bind (liftExcept _) fun _ => setLock ref _

theorem emitAttached (child : DictionaryRef) (priority : Value) (children : Nat) :
    Unnoticed (emitAttached child priority children) := by
  refine bind (dictionary? child) fun found => ?_
  cases found with
  | none => exact pure ()
  | some dictionary => exact emit nofun

theorem gather (children : List DictionaryRef) (items : List Item) :
    Unnoticed (gather children items) := by
  induction items generalizing children with
  | nil => exact pure children
  | cons item items ih =>
    cases item with
    | dictionary ref => exact bind (emitAttached _ _ _) fun _ => ih _
    | absent => exact throw _
    | iterable kind size => exact throw _
    | other kind name => exact throw _

theorem createComposite (locale : Text) (items : List Item) (texts : List (Text × Text)) :
    Unnoticed (createComposite locale items texts) :=
  bind (gather [] items) fun _ => addDictionary _

theorem takeChild (composite : DictionaryRef) (children : List DictionaryRef)
    (child : DictionaryRef) (priority : Value) :
    Unnoticed (takeChild composite children child priority) := by
  unfold Session.takeChild
  split
  · exact throw _
  · exact bind (modifyDictionary _ _) fun _ => emitAttached _ _ _

theorem attach (composite : DictionaryRef) (item : Item) (priority : Value) :
    Unnoticed (attach composite item priority) := by
  refine bind (dictionary? composite) fun found => ?_
  split
  · split
    · exact throw _
    · exact takeChild _ _ _ _
  · exact throw _
  · exact bind (dictionary? composite) fun _ => throw _

theorem removeText (ref : DictionaryRef) (key : Text) : Unnoticed (removeText ref key) :=
  fun _ => ⟨rfl, rfl⟩

theorem chainFor (language : Text) (source : Source) : Unnoticed (chainFor language source) := by
  cases source with
  | many items => exact createComposite language items []
  | one item =>
    cases item with
    | dictionary ref =>
      refine bind (dictionary? ref) fun found => ?_
      split
      · exact pure ref
      · exact createComposite language _ []
    | absent => exact createComposite language [] []
    | iterable kind size => exact createComposite language _ []
    | other kind name => exact throw _

theorem checkLanguage (language : Text) : Unnoticed (checkLanguage language) := by
  unfold Session.checkLanguage
  split
  · exact pure ()
  · exact throw _

theorem createTranslator (language : Text) (source : Source) (options : Options) :
    Unnoticed (createTranslator language source options) := by
  have hadd : ∀ translator : Translator, Unnoticed (modifyGet fun session : Session =>
      (session.translators.length,
        { session with translators := session.translators ++ [translator] })) :=
    fun translator session => ⟨rfl, rfl⟩
  refine bind (checkLanguage language) fun _ => bind (chainFor language source) fun chain => ?_
  refine bind (hadd _) fun ref => bind (bind (dictionary? chain) fun _ => pure _) fun _ => ?_
  exact bind (emit nofun) fun _ => pure ref

theorem createSystemTranslator (settings : Tag.Settings) (source : Source) (options : Options) :
    Unnoticed (createSystemTranslator settings source options) := by
  unfold Session.createSystemTranslator
  split
  · exact throw _
  · exact createTranslator _ source options

theorem setLanguage (ref : TranslatorRef) (language : Text) :
    Unnoticed (setLanguage ref language) := by
  refine bind (checkLanguage language) fun _ => bind (translator? ref) fun _ => ?_
  exact bind (guarded (modifyTranslator ref _) ref _ _) fun _ => emit nofun

theorem setChain (ref : TranslatorRef) (source : Source) : Unnoticed (setChain ref source) := by
  have hreplace : ∀ language, Unnoticed (do
      let chain ← Session.chainFor language source
      Session.modifyTranslator ref fun translator => { translator with chain }
      return chain) := fun language =>
    bind (chainFor language source) fun _ => bind (modifyTranslator ref _) fun _ => pure _
  refine bind (translator? ref) fun found => bind (guarded (hreplace _) ref _ _) fun chain => ?_
  refine bind (dictionary? chain) fun dictionary => ?_
  cases dictionary with
  | none => exact pure ()
  | some dictionary => exact emit nofun

theorem attachToTranslator (ref : TranslatorRef) (item : Item) (priority : Value) :
    Unnoticed (attachToTranslator ref item priority) :=
  guarded (bind (chainOf ref) fun chain => attach chain item priority) ref _ _

theorem hasText (ref : TranslatorRef) (key : Text) : Unnoticed (hasText ref key) :=
  guarded (bind (chainOf ref) fun chain => bind (getText chain key) fun _ => pure _) ref _ _

theorem tableFor (text : Text) (args : Placeholder.Args) (reserved : List Text) :
    Unnoticed (tableFor text args reserved) := by
  unfold Session.tableFor
  split
  · exact pure _
  all_goals exact throw _

theorem insertedCount (count : Number) : Unnoticed (insertedCount count) := by
  unfold Session.insertedCount
  split
  · exact pure _
  · exact throw _

theorem chooseText (text : Text) (count : Number) (language : Text) :
    Unnoticed (chooseText text count language) := by
  unfold Session.chooseText
  split
  · next choice _ =>
    cases choice with
    | explicit interval text => exact bind (emit nofun) fun _ => pure _
    | form index text => exact bind (emit nofun) fun _ => pure _
    | only text => exact pure _
  all_goals exact throw _

/-- Once a key has a text, nothing more is told, whatever becomes of the question. -/
theorem answer (key text language : Text) (question : Question) :
    Unnoticed (question.answer key text language) := by
  cases question with
  | text args =>
    exact bind (tableFor text args []) fun _ => bind (emit nofun) fun _ =>
      pure _
  | plural count args =>
    exact bind (chooseText text count language) fun _ => bind (tableFor _ args _) fun _ =>
      bind (insertedCount count) fun _ => bind (emit nofun) fun _ => pure _
  | review => exact bind (emit nofun) fun _ => pure _

end Unnoticed
end Phrasebook.Session
