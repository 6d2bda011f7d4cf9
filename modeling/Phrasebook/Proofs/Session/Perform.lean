import Phrasebook.Session.Translators

/-!
Performing an action in a session gives a value or a failure, and the session that it leaves.
An action is performed step by step, so one equation for each of the steps that actions are made
of is enough. What is done under the lock of a translator is done as if there were no lock, as
long as the lock is idle before and the action does not look at it.
-/
namespace Phrasebook.Session

variable {α β : Type}

def perform (session : Session) (action : Action α) : Except Failure α × Session :=
  action.run.run session

@[simp] theorem perform_pure (session : Session) (a : α) :
    session.perform (pure a) = (.ok a, session) := rfl

@[simp] theorem perform_throw (session : Session) (failure : Failure) :
    session.perform (throw failure : Action α) = (.error failure, session) := rfl

/-- What follows is performed in the session that is left, unless there was a failure. -/
@[simp] theorem perform_bind (session : Session) (action : Action α) (next : α → Action β) :
    session.perform (action >>= next) =
      match session.perform action with
      | (.ok a, later) => later.perform (next a)
      | (.error failure, later) => (.error failure, later) := by
  simp only [perform, ExceptT.run_bind, StateT.run_bind]
  rcases action.run.run session with ⟨result, later⟩
  cases result <;> rfl

@[simp] theorem perform_map (session : Session) (f : α → β) (action : Action α) :
    session.perform (f <$> action) =
      ((session.perform action).1.map f, (session.perform action).2) := by
  rw [map_eq_pure_bind, perform_bind]
  rcases session.perform action with ⟨result, later⟩
  cases result <;> rfl

@[simp] theorem perform_get (session : Session) :
    session.perform (get : Action Session) = (.ok session, session) := rfl

@[simp] theorem perform_modify (session : Session) (f : Session → Session) :
    session.perform (modify f : Action Unit) = (.ok (), f session) := rfl

@[simp] theorem perform_modifyGet (session : Session) (f : Session → α × Session) :
    session.perform (modifyGet f : Action α) = (.ok (f session).1, (f session).2) := rfl

/-- The cleanup is performed whatever became of the body, and its failure prevails. -/
theorem perform_tryFinally (session : Session) (body : Action α) (cleanup : Action β) :
    session.perform (tryFinally body cleanup) =
      match (session.perform body).2.perform cleanup with
      | (.ok _, last) => ((session.perform body).1, last)
      | (.error failure, last) => (.error failure, last) := by
  unfold tryFinally perform
  simp only [tryFinally', Functor.map, ExceptT.map, ExceptT.run, ExceptT.mk, StateT.run,
    StateT.bind, bind]
  rcases body session with ⟨result, later⟩
  rcases hcleanup : cleanup later with ⟨final, last⟩
  cases result <;> cases final <;> simp only [hcleanup] <;> rfl

@[simp] theorem perform_emit (session : Session) (event : Log.Event) :
    session.perform (emit event) = (.ok (), { session with log := session.log ++ [event] }) := rfl

@[simp] theorem perform_dictionary? (session : Session) (ref : DictionaryRef) :
    session.perform (dictionary? ref) = (.ok (session.library.get? ref), session) := rfl

@[simp] theorem perform_modifyDictionary (session : Session) (ref : DictionaryRef)
    (f : Dictionary → Dictionary) :
    session.perform (modifyDictionary ref f) =
      (.ok (), { session with library := session.library.modify ref f }) := rfl

@[simp] theorem perform_addDictionary (session : Session) (dictionary : Dictionary) :
    session.perform (addDictionary dictionary) =
      (.ok session.library.size, { session with library := (session.library.add dictionary).2 }) :=
  rfl

@[simp] theorem perform_translator? (session : Session) (ref : TranslatorRef) :
    session.perform (translator? ref) = (.ok session.translators[ref]?, session) := rfl

@[simp] theorem perform_modifyTranslator (session : Session) (ref : TranslatorRef)
    (f : Translator → Translator) :
    session.perform (modifyTranslator ref f) =
      (.ok (), { session with translators := session.translators.modify ref f }) := rfl

/-- A search that runs in a circle fails, and no search changes anything. -/
@[simp] theorem perform_finite (session : Session) (outcome : Except Endless α) :
    session.perform (finite outcome) = (outcome.mapError fun _ => .endless, session) := by
  cases outcome <;> rfl

@[simp] theorem perform_getText (session : Session) (ref : DictionaryRef) (key : Text) :
    session.perform (getText ref key) =
      ((session.library.lookup ref key).mapError fun _ => .endless, session) := by
  simp [getText]

@[simp] theorem perform_allTexts (session : Session) (ref : DictionaryRef) :
    session.perform (allTexts ref) =
      ((session.library.listing ref).mapError fun _ => .endless, session) := by
  simp [allTexts]

@[simp] theorem perform_countKeys (session : Session) (ref : DictionaryRef) :
    session.perform (countKeys ref) =
      ((session.library.count ref).mapError fun _ => .endless, session) := by
  simp [countKeys]

@[simp] theorem perform_containsKey (session : Session) (ref : DictionaryRef) (key : Text) :
    session.perform (containsKey ref (.text key)) =
      ((session.library.contains ref (some key)).mapError fun _ => .endless, session) := by
  simp [containsKey, Value.isKey, Value.text?]

end Phrasebook.Session
