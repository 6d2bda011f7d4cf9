import Phrasebook.Proofs.Session.Perform

/-!
The lock of a translator is idle between the actions of a session. What is done under an idle lock
is done as without one: the action in between neither looks at the locks nor touches them, so the
lock that was acquired for it is the lock that is released.
-/
namespace Phrasebook.Session

variable {α β : Type}

def Idle (session : Session) : Prop :=
  ∀ translator ∈ session.translators, ∀ lock, translator.lock = some lock → lock = {}

def withLock (session : Session) (ref : TranslatorRef) (lock : Lock Unit) : Session :=
  { session with
    translators := session.translators.modify ref fun translator =>
      { translator with lock := some lock } }

/-- An action does not depend on the locks and leaves them as they are. -/
def LockBlind (action : Action α) : Prop :=
  ∀ (session : Session) (ref : TranslatorRef) (lock : Lock Unit),
    (session.withLock ref lock).perform action =
      ((session.perform action).1, (session.perform action).2.withLock ref lock)

theorem withLock_withLock (session : Session) (ref : TranslatorRef) (first second : Lock Unit) :
    (session.withLock ref first).withLock ref second = session.withLock ref second := by
  simp only [withLock, List.modify_modify_eq]
  rfl

theorem withLock_eq_self {session : Session} {ref : TranslatorRef} {lock : Lock Unit}
    (h : (session.translators[ref]?).bind Translator.lock = some lock) :
    session.withLock ref lock = session := by
  obtain ⟨translator, hget, hlock⟩ := Option.bind_eq_some_iff.1 h
  have hsame : session.translators.modify ref (fun t => { t with lock := some lock }) =
      session.translators := by
    apply List.ext_getElem?
    intro i
    rw [List.getElem?_modify]
    by_cases hi : ref = i
    · subst hi
      simp [hget, ← hlock]
    · simp [hi]
  rw [withLock, hsame]

theorem lock_withLock (session : Session) (ref : TranslatorRef) (lock : Lock Unit) :
    ((session.withLock ref lock).translators[ref]?).bind Translator.lock =
      (session.translators[ref]?).map fun _ => lock := by
  simp only [withLock, List.getElem?_modify_eq]
  cases session.translators[ref]? <;> rfl

theorem withLock_of_none {session : Session} {ref : TranslatorRef} (lock : Lock Unit)
    (h : session.translators[ref]? = none) : session.withLock ref lock = session := by
  rw [withLock, List.modify_eq_self (List.getElem?_eq_none_iff.1 h)]

@[simp] theorem perform_setLock (session : Session) (ref : TranslatorRef) (lock : Lock Unit) :
    session.perform (setLock ref lock) = (.ok (), session.withLock ref lock) := rfl

/-- What is done under a lock that is idle is done as without it. -/
theorem perform_guarded {session : Session} (hidle : session.Idle) {body : Action α}
    (hblind : LockBlind body) (ref : TranslatorRef) {held : Lock Unit}
    {acquire : Lock Unit → Except Failure (Lock Unit)} (hacquire : acquire {} = .ok held)
    {release : Lock Unit → Except Lock.Refusal (Lock Unit)} (hrelease : release held = .ok {}) :
    session.perform (guarded ref acquire release body) = session.perform body := by
  cases hlock : (session.translators[ref]?).bind Translator.lock with
  | none => simp [guarded, hlock]
  | some lock =>
    obtain ⟨translator, hget, hown⟩ := Option.bind_eq_some_iff.1 hlock
    obtain rfl := hidle translator (List.mem_of_getElem? hget) lock hown
    have hbody := hblind session ref held
    -- The body leaves an idle lock idle, because putting it in that state changes nothing before.
    have hkept : (session.perform body).2.withLock ref {} = (session.perform body).2 := by
      have h := hblind session ref {}
      rw [withLock_eq_self hlock] at h
      exact (congrArg Prod.snd h).symm
    simp only [guarded, perform_bind, perform_translator?, hlock, hacquire, guarded.liftExcept,
      perform_pure, perform_setLock, perform_tryFinally, hbody, lock_withLock]
    cases hlater : (session.perform body).2.translators[ref]? with
    | none => simp [withLock_of_none held hlater]
    | some translator =>
      have hreleased : (release held).mapError Failure.refused = .ok {} := by
        rw [hrelease]
        rfl
      simp only [Option.map_some, hreleased, perform_pure, perform_setLock, perform_bind,
        withLock_withLock, hkept]

theorem perform_reading {session : Session} (hidle : session.Idle) {body : Action α}
    (hblind : LockBlind body) (ref : TranslatorRef) :
    session.perform (reading ref body) = session.perform body := by
  unfold reading
  apply perform_guarded hidle hblind ref
  · rfl
  · rfl

theorem perform_writing {session : Session} (hidle : session.Idle) {body : Action α}
    (hblind : LockBlind body) (ref : TranslatorRef) :
    session.perform (writing ref body) = session.perform body := by
  unfold writing
  apply perform_guarded hidle hblind ref
  · rfl
  · rfl

namespace LockBlind

theorem pure (a : α) : LockBlind (pure a : Action α) := fun _ _ _ => rfl

theorem throw (failure : Failure) : LockBlind (throw failure : Action α) := fun _ _ _ => rfl

theorem bind {action : Action α} {next : α → Action β} (haction : LockBlind action)
    (hnext : ∀ a, LockBlind (next a)) : LockBlind (action >>= next) := by
  intro session ref lock
  rw [perform_bind, perform_bind, haction session ref lock]
  rcases session.perform action with ⟨result | a, later⟩
  · rfl
  · exact hnext a later ref lock

theorem emit (event : Log.Event) : LockBlind (emit event) := fun _ _ _ => rfl

theorem dictionary? (ref : DictionaryRef) : LockBlind (dictionary? ref) := fun _ _ _ => rfl

theorem modifyDictionary (ref : DictionaryRef) (f : Dictionary → Dictionary) :
    LockBlind (modifyDictionary ref f) := fun _ _ _ => rfl

theorem addDictionary (dictionary : Dictionary) : LockBlind (addDictionary dictionary) :=
  fun _ _ _ => rfl

theorem refuse (ref : DictionaryRef) (wanted : Lack.Wanted) :
    LockBlind (refuse ref wanted : Action α) := fun _ _ _ => rfl

theorem getText (ref : DictionaryRef) (key : Text) : LockBlind (getText ref key) := by
  intro session translator lock
  rw [perform_getText, perform_getText]
  rfl

/-- The chain of a translator is found whatever the state of its lock. -/
theorem chainOf (ref : TranslatorRef) : LockBlind (chainOf ref) := by
  intro session other lock
  have hchain : ((session.withLock other lock).translators[ref]?).map Translator.chain =
      (session.translators[ref]?).map Translator.chain := by
    rw [withLock, List.getElem?_modify]
    split
    · cases session.translators[ref]? <;> rfl
    · simp
  simp [Session.chainOf, Except.map, hchain]

theorem modifyTranslator {f : Translator → Translator}
    (hf : ∀ (translator : Translator) (lock : Option (Lock Unit)),
      f { translator with lock } = { f translator with lock }) (ref : TranslatorRef) :
    LockBlind (modifyTranslator ref f) := by
  intro session other lock
  simp only [perform_modifyTranslator, withLock, Prod.mk.injEq, true_and]
  congr 1
  by_cases h : other = ref
  · subst h
    rw [List.modify_modify_eq, List.modify_modify_eq]
    congr 1
    funext translator
    exact hf translator (some lock)
  · exact List.modify_modify_ne _ _ _ h

theorem emitAttached (child : DictionaryRef) (priority : Value) (children : Nat) :
    LockBlind (emitAttached child priority children) := by
  refine bind (dictionary? child) fun found => ?_
  cases found with
  | none => exact pure ()
  | some dictionary => exact emit _

theorem takeChild (composite : DictionaryRef) (children : List DictionaryRef)
    (child : DictionaryRef) (priority : Value) :
    LockBlind (takeChild composite children child priority) := by
  unfold Session.takeChild
  split
  · exact throw _
  · exact bind (modifyDictionary _ _) fun _ => emitAttached _ _ _

theorem attach (composite : DictionaryRef) (item : Item) (priority : Value) :
    LockBlind (attach composite item priority) := by
  refine bind (dictionary? composite) fun found => ?_
  split
  · split
    · exact throw _
    · exact takeChild _ _ _ _
  · exact throw _
  · exact refuse _ _

/-- What a translator does under its lock to give its chain a child. -/
theorem attachToChain (ref : TranslatorRef) (item : Item) (priority : Value) :
    LockBlind (do Session.attach (← Session.chainOf ref) item priority) :=
  bind (chainOf ref) fun _ => attach _ _ _

theorem gather (children : List DictionaryRef) (items : List Item) :
    LockBlind (gather children items) := by
  induction items generalizing children with
  | nil => exact pure children
  | cons item items ih =>
    cases item with
    | dictionary ref => exact bind (emitAttached _ _ _) fun _ => ih _
    | absent => exact throw _
    | iterable kind size => exact throw _
    | other kind name => exact throw _

theorem createComposite (locale : Text) (items : List Item) (texts : List (Text × Text)) :
    LockBlind (createComposite locale items texts) :=
  bind (gather [] items) fun _ => addDictionary _

theorem chainFor (language : Text) (source : Source) : LockBlind (chainFor language source) := by
  cases source with
  | many items => exact createComposite language items []
  | one item =>
    cases item with
    | dictionary ref =>
      refine bind (dictionary? ref) fun found => ?_
      split
      · exact pure ref
      · exact createComposite language _ []
    | absent => exact createComposite language [] []
    | iterable kind size => exact createComposite language _ []
    | other kind name => exact throw _

end LockBlind
end Phrasebook.Session
