import Phrasebook.Proofs.Session.Misses

/-!
Translators with locks do in one thread what translators without locks do. Every lock is idle
between two operations, whatever became of the first, so the next one acquires it at once; and no
operation acquires a lock that it holds.
-/
namespace Phrasebook

def Translator.unguarded (translator : Translator) : Translator := { translator with lock := none }

def Log.Event.unguarded : Log.Event → Log.Event
  | .started language dictionaries silent _ => .started language dictionaries silent false
  | event => event

/-- The failures that come from a lock: it refuses, or it lets wait for ever. -/
def Failure.OfLock : Failure → Prop
  | .refused _ | .blocked => True
  | _ => False

namespace Session

variable {α β : Type}

def unguarded (session : Session) : Session :=
  { session with
    translators := session.translators.map Translator.unguarded
    log := session.log.map Log.Event.unguarded }

def Operation.withSafety (threadSafe : Bool) : Operation → Operation
  | .createTranslator language source options =>
    .createTranslator language source { options with threadSafe }
  | .createSystemTranslator settings source options =>
    .createSystemTranslator settings source { options with threadSafe }
  | operation => operation

def answers : Session → List Operation → List (Except Failure Answer)
  | _, [] => []
  | session, operation :: operations =>
    (session.perform operation.action).1 :: (session.after operation).answers operations

/-- Every translator has a lock, which nobody holds or waits for. -/
def Guarded (session : Session) : Prop :=
  ∀ translator ∈ session.translators, translator.lock = some {}

/-- Where every translator has an idle lock, the first action does what the second does where
there are no locks. It leaves the locks idle and does not fail because of them. -/
def DoneWithout (action plain : Action α) : Prop :=
  ∀ session : Session, session.Guarded →
    session.unguarded.perform plain =
      ((session.perform action).1, (session.perform action).2.unguarded) ∧
    (session.perform action).2.Guarded ∧
    ∀ failure, (session.perform action).1 = .error failure → ¬failure.OfLock

theorem Guarded.idle {session : Session} (h : session.Guarded) : session.Idle := by
  intro translator hmem lock hlock
  rw [h translator hmem] at hlock
  exact (Option.some.inj hlock).symm

theorem unguarded_idle (session : Session) : session.unguarded.Idle := by
  intro translator hmem lock hlock
  obtain ⟨former, -, rfl⟩ := List.mem_map.1 hmem
  cases hlock

theorem language_unguarded (found : Option Translator) :
    (found.map Translator.unguarded).map Translator.language =
      found.map Translator.language := by
  cases found <;> rfl

namespace DoneWithout

theorem pure (a : α) : DoneWithout (pure a : Action α) (Pure.pure a) :=
  fun _ hguarded => ⟨rfl, hguarded, by simp⟩

theorem throw {failure : Failure} (h : ¬failure.OfLock) :
    DoneWithout (throw failure : Action α) (MonadExcept.throw failure) := by
  refine fun session hguarded => ⟨rfl, hguarded, ?_⟩
  rintro _ ⟨⟩
  exact h

theorem bind {action plain : Action α} {next plainNext : α → Action β}
    (haction : DoneWithout action plain) (hnext : ∀ a, DoneWithout (next a) (plainNext a)) :
    DoneWithout (action >>= next) (plain >>= plainNext) := by
  intro session hguarded
  obtain ⟨hsame, hlater, hfailure⟩ := haction session hguarded
  rw [perform_bind, perform_bind, hsame]
  generalize session.perform action = outcome at hlater hfailure
  rcases outcome with ⟨failure | a, later⟩
  · refine ⟨rfl, hlater, ?_⟩
    rintro _ ⟨⟩
    exact hfailure failure rfl
  · exact hnext a later hlater

theorem map {action plain : Action α} (f : α → β) (h : DoneWithout action plain) :
    DoneWithout (f <$> action) (f <$> plain) := by
  rw [map_eq_pure_bind, map_eq_pure_bind]
  exact h.bind fun a => pure (f a)

theorem ite {condition : Prop} [Decidable condition] {action plain other plainOther : Action α}
    (haction : DoneWithout action plain) (hother : DoneWithout other plainOther) :
    DoneWithout (if condition then action else other)
      (if condition then plain else plainOther) := by
  split
  · exact haction
  · exact hother

/-- Who asks for a translator is given one without a lock where there are none. -/
theorem bind_translator? (ref : TranslatorRef) {next plainNext : Option Translator → Action β}
    (hnext : ∀ found, DoneWithout (next found) (plainNext (found.map Translator.unguarded))) :
    DoneWithout (translator? ref >>= next) (translator? ref >>= plainNext) := by
  intro session hguarded
  have hfound : session.unguarded.translators[ref]? =
      session.translators[ref]?.map Translator.unguarded := List.getElem?_map
  rw [perform_bind, perform_bind, perform_translator?, perform_translator?, hfound]
  exact hnext _ session hguarded

theorem reading {body : Action α} (hbody : DoneWithout body body) (hblind : LockBlind body)
    (ref : TranslatorRef) : DoneWithout (reading ref body) (reading ref body) := by
  intro session hguarded
  rw [perform_reading hguarded.idle hblind, perform_reading session.unguarded_idle hblind]
  exact hbody session hguarded

theorem writing {body : Action α} (hbody : DoneWithout body body) (hblind : LockBlind body)
    (ref : TranslatorRef) : DoneWithout (writing ref body) (writing ref body) := by
  intro session hguarded
  rw [perform_writing hguarded.idle hblind, perform_writing session.unguarded_idle hblind]
  exact hbody session hguarded

theorem emit (event : Log.Event) : DoneWithout (emit event) (emit event.unguarded) := by
  refine fun session hguarded => ⟨?_, hguarded, by simp⟩
  simp [unguarded]

theorem dictionary? (ref : DictionaryRef) :
    DoneWithout (dictionary? ref) (Session.dictionary? ref) :=
  fun _ hguarded => ⟨rfl, hguarded, by simp⟩

theorem modifyDictionary (ref : DictionaryRef) (f : Dictionary → Dictionary) :
    DoneWithout (modifyDictionary ref f) (Session.modifyDictionary ref f) :=
  fun _ hguarded => ⟨rfl, hguarded, by simp⟩

theorem addDictionary (dictionary : Dictionary) :
    DoneWithout (addDictionary dictionary) (Session.addDictionary dictionary) :=
  fun _ hguarded => ⟨rfl, hguarded, by simp⟩

theorem getText (ref : DictionaryRef) (key : Text) :
    DoneWithout (getText ref key) (Session.getText ref key) := by
  intro session hguarded
  rw [perform_getText, perform_getText]
  refine ⟨rfl, hguarded, fun failure hfailure => ?_⟩
  cases hlookup : session.library.lookup ref key with
  | ok found =>
    rw [hlookup] at hfailure
    cases hfailure
  | error endless =>
    rw [hlookup] at hfailure
    cases hfailure
    exact id

/-- A change of a translator that does not look at its lock is made with a lock as without. -/
theorem modifyTranslator {f : Translator → Translator}
    (hf : ∀ translator, (f translator).unguarded = f translator.unguarded)
    (hlock : ∀ translator, (f translator).lock = translator.lock) (ref : TranslatorRef) :
    DoneWithout (modifyTranslator ref f) (Session.modifyTranslator ref f) := by
  intro session hguarded
  refine ⟨?_, ?_, by simp⟩
  · have hmodify : (session.translators.map Translator.unguarded).modify ref f =
        (session.translators.modify ref f).map Translator.unguarded := by
      apply List.ext_getElem?
      intro i
      rw [List.getElem?_modify, List.getElem?_map, List.getElem?_map, List.getElem?_modify]
      by_cases hi : ref = i
      · simp [hi, Function.comp_def, hf]
      · simp [hi]
    simp only [perform_modifyTranslator, unguarded, hmodify]
  · intro translator hmem
    obtain ⟨former, hformer, rfl | rfl⟩ := mem_of_mem_modify hmem
    · exact hguarded _ hformer
    · rw [hlock]
      exact hguarded former hformer

theorem refuse (ref : DictionaryRef) (wanted : Lack.Wanted) :
    DoneWithout (refuse ref wanted : Action α) (Session.refuse ref wanted) :=
  bind (dictionary? ref) fun _ => throw id

theorem emitAttached (child : DictionaryRef) (priority : Value) (children : Nat) :
    DoneWithout (emitAttached child priority children)
      (Session.emitAttached child priority children) := by
  refine bind (dictionary? child) fun found => ?_
  cases found with
  | none => exact pure ()
  | some dictionary => exact emit _

theorem takeChild (composite : DictionaryRef) (children : List DictionaryRef)
    (child : DictionaryRef) (priority : Value) :
    DoneWithout (takeChild composite children child priority)
      (Session.takeChild composite children child priority) := by
  unfold Session.takeChild
  split
  · exact throw id
  · exact bind (modifyDictionary _ _) fun _ => emitAttached _ _ _

theorem attach (composite : DictionaryRef) (item : Item) (priority : Value) :
    DoneWithout (attach composite item priority) (Session.attach composite item priority) := by
  refine bind (dictionary? composite) fun found => ?_
  split
  · split
    · exact throw id
    · exact takeChild _ _ _ _
  · exact throw id
  · exact refuse _ _

theorem gather (children : List DictionaryRef) (items : List Item) :
    DoneWithout (gather children items) (Session.gather children items) := by
  induction items generalizing children with
  | nil => exact pure children
  | cons item items ih =>
    cases item with
    | dictionary ref => exact bind (emitAttached _ _ _) fun _ => ih _
    | absent => exact throw id
    | iterable kind size => exact throw id
    | other kind name => exact throw id

theorem createComposite (locale : Text) (items : List Item) (texts : List (Text × Text)) :
    DoneWithout (createComposite locale items texts)
      (Session.createComposite locale items texts) :=
  bind (gather [] items) fun _ => addDictionary _

theorem removeText (ref : DictionaryRef) (key : Text) :
    DoneWithout (removeText ref key) (Session.removeText ref key) :=
  bind (dictionary? ref) fun _ => bind (modifyDictionary ref _) fun _ => pure _

theorem chainFor (language : Text) (source : Source) :
    DoneWithout (chainFor language source) (Session.chainFor language source) := by
  cases source with
  | many items => exact createComposite language items []
  | one item =>
    cases item with
    | dictionary ref =>
      refine bind (dictionary? ref) fun found => ?_
      split
      · exact pure ref
      · exact createComposite language _ []
    | absent => exact createComposite language [] []
    | iterable kind size => exact createComposite language _ []
    | other kind name => exact throw id

theorem checkLanguage (language : Text) :
    DoneWithout (checkLanguage language) (Session.checkLanguage language) :=
  ite (pure ()) (throw id)

theorem createTranslator (language : Text) (source : Source) (options : Options) :
    DoneWithout (createTranslator language source { options with threadSafe := true })
      (Session.createTranslator language source { options with threadSafe := false }) := by
  refine bind (checkLanguage language) fun _ => bind (chainFor language source) fun chain => ?_
  refine bind ?_ fun ref => bind (bind (dictionary? chain) fun _ => pure _) fun children =>
    bind (emit (.started language children options.silent true)) fun _ => pure ref
  refine fun session hguarded => ⟨by simp [unguarded, Translator.unguarded], ?_, by simp⟩
  intro translator hmem
  obtain hold | hnew := List.mem_append.1 hmem
  · exact hguarded translator hold
  · obtain rfl := List.mem_singleton.1 hnew
    rfl

theorem createSystemTranslator (settings : Tag.Settings) (source : Source) (options : Options) :
    DoneWithout (createSystemTranslator settings source { options with threadSafe := true })
      (Session.createSystemTranslator settings source { options with threadSafe := false }) := by
  unfold Session.createSystemTranslator
  split
  · exact throw id
  · exact createTranslator _ source options

theorem setLanguage (ref : TranslatorRef) (language : Text) :
    DoneWithout (setLanguage ref language) (Session.setLanguage ref language) := by
  refine bind (checkLanguage language) fun _ => bind_translator? ref fun found => ?_
  have hchange := modifyTranslator (f := fun t => { t with language }) (fun _ => rfl)
    (fun _ => rfl) ref
  have hblind := LockBlind.modifyTranslator (f := fun t => { t with language }) (fun _ _ => rfl) ref
  rw [language_unguarded]
  exact bind (writing hchange hblind ref) fun _ => emit _

theorem chainOf (ref : TranslatorRef) : DoneWithout (chainOf ref) (Session.chainOf ref) := by
  refine bind_translator? ref fun found => ?_
  cases found <;> exact pure _

theorem setChain (ref : TranslatorRef) (source : Source) :
    DoneWithout (setChain ref source) (Session.setChain ref source) := by
  refine bind_translator? ref fun found => ?_
  rw [language_unguarded]
  refine bind (writing ?_ (lockBlind_replaceChain ref _ source) ref) fun chain => ?_
  · exact bind (chainFor _ source) fun chain =>
      bind (modifyTranslator (f := fun t => { t with chain }) (fun _ => rfl) (fun _ => rfl) ref)
        fun _ => pure chain
  · refine bind (dictionary? chain) fun dictionary => ?_
    cases dictionary with
    | none => exact pure ()
    | some dictionary => exact emit _

theorem attachToTranslator (ref : TranslatorRef) (item : Item) (priority : Value) :
    DoneWithout (attachToTranslator ref item priority)
      (Session.attachToTranslator ref item priority) :=
  writing (bind (chainOf ref) fun chain => attach chain item priority)
    (LockBlind.attachToChain ref item priority) ref

theorem hasText (ref : TranslatorRef) (key : Text) :
    DoneWithout (hasText ref key) (Session.hasText ref key) := by
  refine reading ?_ ?_ ref
  · exact bind (chainOf ref) fun chain => bind (getText chain key) fun _ => pure _
  · exact LockBlind.bind (LockBlind.chainOf ref) fun chain =>
      LockBlind.bind (LockBlind.getText chain key) fun _ => LockBlind.pure _

theorem observe (ref : TranslatorRef) (key language : Text) (observer : Observer) :
    DoneWithout (observe ref key language observer)
      (Session.observe ref key language observer) := by
  intro session hguarded
  have hmissed : session.unguarded.missed = session.missed := rfl
  simp only [Session.observe, perform_bind, perform_get, perform_modify, hmissed]
  cases observer.complaint? (session.missed ++ [⟨ref, key, language⟩]) with
  | none => exact ⟨rfl, hguarded, by simp⟩
  | some message =>
    refine ⟨rfl, hguarded, ?_⟩
    rintro _ ⟨⟩
    exact id

theorem resolve (ref : TranslatorRef) (translator : Translator) (key : Text) :
    DoneWithout (resolve ref translator key) (Session.resolve ref translator key) := by
  refine bind (reading (getText _ key) (LockBlind.getText _ key) ref) fun found => ?_
  cases found with
  | some text => exact pure _
  | none =>
    refine bind (emit _) fun _ => ?_
    cases translator.observer with
    | none => exact ite (pure _) (throw id)
    | some observer => exact bind (observe ref key _ observer) fun _ => ite (pure _) (throw id)

theorem lookup (ref : TranslatorRef) (key : Text) :
    DoneWithout (lookup ref key) (Session.lookup ref key) := by
  refine bind_translator? ref fun found => ?_
  cases found with
  | none => exact pure _
  | some translator => exact resolve ref translator key

theorem tableFor (text : Text) (args : Placeholder.Args) (reserved : List Text) :
    DoneWithout (tableFor text args reserved) (Session.tableFor text args reserved) := by
  unfold Session.tableFor
  split
  · exact pure _
  all_goals exact throw id

theorem insertedCount (count : Number) :
    DoneWithout (insertedCount count) (Session.insertedCount count) := by
  unfold Session.insertedCount
  split
  · exact pure _
  · exact throw id

theorem chooseText (text : Text) (count : Number) (language : Text) :
    DoneWithout (chooseText text count language) (Session.chooseText text count language) := by
  unfold Session.chooseText
  split
  · next choice _ =>
    cases choice with
    | explicit interval text => exact bind (emit _) fun _ => pure _
    | form index text => exact bind (emit _) fun _ => pure _
    | only text => exact bind (pure ()) fun _ => pure _
  all_goals exact throw id

theorem translate (ref : TranslatorRef) (key : Text) (args : Placeholder.Args) :
    DoneWithout (translate ref key args) (Session.translate ref key args) :=
  bind (lookup ref key) fun _ => bind (tableFor _ args []) fun _ => bind (emit _) fun _ => pure _

theorem translatePlural (ref : TranslatorRef) (key : Text) (count : Number)
    (args : Placeholder.Args) :
    DoneWithout (translatePlural ref key count args) (Session.translatePlural ref key count args) :=
  bind (lookup ref key) fun _ => bind (chooseText _ count _) fun _ =>
    bind (tableFor _ args _) fun _ => bind (insertedCount count) fun _ =>
      bind (emit _) fun _ => pure _

theorem reviewText (ref : TranslatorRef) (key : Text) :
    DoneWithout (reviewText ref key) (Session.reviewText ref key) :=
  bind (lookup ref key) fun _ => bind (emit _) fun _ => pure _

/-- Every operation does without locks what it does with them. -/
theorem action (operation : Operation) :
    DoneWithout (operation.withSafety true).action (operation.withSafety false).action := by
  cases operation with
  | createSimple locale texts => exact map _ (addDictionary _)
  | createForeign lookup listing => exact map _ (addDictionary _)
  | createComposite locale items texts => exact map _ (createComposite locale items texts)
  | attach composite item priority => exact map _ (attach composite item priority)
  | setText ref key text comment => exact map _ (modifyDictionary ref _)
  | updateTexts ref texts => exact map _ (modifyDictionary ref _)
  | replaceTexts ref texts => exact map _ (modifyDictionary ref _)
  | removeText ref key => exact map _ (removeText ref key)
  | createTranslator language source options =>
    exact map _ (createTranslator language source options)
  | createSystemTranslator settings source options =>
    exact map _ (createSystemTranslator settings source options)
  | setLanguage ref language => exact map _ (setLanguage ref language)
  | setChain ref source => exact map _ (setChain ref source)
  | attachToTranslator ref item priority => exact map _ (attachToTranslator ref item priority)
  | hasText ref key => exact map _ (hasText ref key)
  | translate ref key args => exact map _ (translate ref key args)
  | translatePlural ref key count args => exact map _ (translatePlural ref key count args)
  | reviewText ref key => exact map _ (reviewText ref key)

end DoneWithout

theorem run_cons (session : Session) (operation : Operation) (operations : List Operation) :
    session.run (operation :: operations) = (session.after operation).run operations := rfl

/-- With locks and without, the answers are the same one by one, and so are the sessions. -/
theorem run_withSafety (operations : List Operation) {session : Session}
    (hguarded : session.Guarded) :
    session.unguarded.answers (operations.map (·.withSafety false)) =
      session.answers (operations.map (·.withSafety true)) ∧
    session.unguarded.run (operations.map (·.withSafety false)) =
      (session.run (operations.map (·.withSafety true))).unguarded ∧
    (session.run (operations.map (·.withSafety true))).Guarded ∧
    ∀ failure, .error failure ∈ session.answers (operations.map (·.withSafety true)) →
      ¬failure.OfLock := by
  induction operations generalizing session with
  | nil => exact ⟨rfl, rfl, hguarded, by simp [answers]⟩
  | cons operation operations ih =>
    obtain ⟨hsame, hlater, hfailure⟩ := DoneWithout.action operation session hguarded
    obtain ⟨hanswers, hrun, hlast, hfailures⟩ := ih hlater
    have hanswer : (session.unguarded.perform (operation.withSafety false).action).1 =
        (session.perform (operation.withSafety true).action).1 := by rw [hsame]
    have hafter : session.unguarded.after (operation.withSafety false) =
        (session.after (operation.withSafety true)).unguarded := congrArg Prod.snd hsame
    refine ⟨?_, ?_, hlast, ?_⟩
    · rw [List.map_cons, List.map_cons, answers, answers, hanswer, hafter]
      exact congrArg _ hanswers
    · rw [List.map_cons, List.map_cons, run_cons, run_cons, hafter]
      exact hrun
    · intro failure hmem
      obtain hfirst | hrest := List.mem_cons.1 hmem
      · exact hfailure failure hfirst.symm
      · exact hfailures failure hrest

/-- Whatever is done in a session, in whatever order, translators with locks give the answers and
the failures of translators without, each in its turn, and leave the session alike but for the
locks. No failure is due to a lock, and in the end, which may be after any operation, nobody holds
a lock or waits for one. -/
theorem locks_make_no_difference (operations : List Operation) :
    answers {} (operations.map (·.withSafety true)) =
      answers {} (operations.map (·.withSafety false)) ∧
    (run {} (operations.map (·.withSafety true))).unguarded =
      run {} (operations.map (·.withSafety false)) ∧
    (∀ failure, .error failure ∈ answers {} (operations.map (·.withSafety true)) →
      failure ≠ .blocked ∧ ∀ reason, failure ≠ .refused reason) ∧
    ∀ translator ∈ (run {} (operations.map (·.withSafety true))).translators,
      translator.lock = some { readers := [], writer := none, waiting := 0 } := by
  have hguarded : Guarded {} := fun translator hmem => by cases hmem
  obtain ⟨hanswers, hrun, hlast, hfailures⟩ := run_withSafety operations hguarded
  refine ⟨hanswers.symm, hrun.symm, ?_, hlast⟩
  intro failure hmem
  have hlock := hfailures failure hmem
  exact ⟨by rintro rfl; exact hlock trivial, by rintro reason rfl; exact hlock trivial⟩

def quarrel : List Operation :=
  [.createSimple "en_US" [("yes", "Yes")],
    .createTranslator "en" (.many [.dictionary 0]) { observer := some ⟨fun _ => some "no"⟩ },
    .translate 0 "gone" .none, .setChain 0 (.many [.other "int" "int"]),
    .attachToTranslator 0 (.dictionary 1) .absent, .setLanguage 0 "de", .hasText 0 "yes"]

theorem locks_make_no_difference_quarrel :
    answers {} (quarrel.map (·.withSafety false)) =
      [.ok (.dictionary 0), .ok (.translator 0), .error (.observer "no"),
        .error (.notDictionary "int"), .error .containsItself, .ok .done, .ok (.whether true)] ∧
    ∃ translator ∈ (run {} (quarrel.map (·.withSafety true))).translators,
      translator.lock = some { readers := [], writer := none, waiting := 0 } := by
  obtain ⟨hanswers, -, -, hlocks⟩ := locks_make_no_difference quarrel
  exact ⟨hanswers.symm.trans rfl, _, List.mem_cons_self, hlocks _ List.mem_cons_self⟩

end Session
end Phrasebook
