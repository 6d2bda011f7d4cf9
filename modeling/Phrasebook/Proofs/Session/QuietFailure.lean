import Phrasebook.Proofs.Session.Change

/-!
An operation that fails has changed no dictionary and no translator. Whatever can fail is done
first: the language is checked and the children are gathered before anything is made, and a child
is looked at before it is taken. What comes after the first change cannot fail any more.
-/
namespace Phrasebook.Session

variable {α β : Type}

/-- An action that fails leaves dictionaries and translators alone, while the locks are idle. -/
def FailsQuietly (action : Action α) : Prop :=
  ∀ session : Session, session.Idle →
    ∀ failure later, session.perform action = (.error failure, later) →
      later.library = session.library ∧ later.translators = session.translators

def NeverFails (action : Action α) : Prop :=
  ∀ session : Session, ∃ a later, session.perform action = (.ok a, later)

namespace NeverFails

theorem pure (a : α) : NeverFails (pure a : Action α) := fun _ => ⟨_, _, rfl⟩

theorem modifyGet (f : Session → α × Session) : NeverFails (modifyGet f : Action α) :=
  fun _ => ⟨_, _, rfl⟩

theorem bind {action : Action α} {next : α → Action β} (haction : NeverFails action)
    (hnext : ∀ a, NeverFails (next a)) : NeverFails (action >>= next) := by
  intro session
  obtain ⟨a, later, hfirst⟩ := haction session
  obtain ⟨b, last, hrest⟩ := hnext a later
  exact ⟨b, last, by rw [perform_bind, hfirst]; exact hrest⟩

theorem emit (event : Log.Event) : NeverFails (emit event) := fun _ => ⟨_, _, rfl⟩

theorem dictionary? (ref : DictionaryRef) : NeverFails (dictionary? ref) := fun _ => ⟨_, _, rfl⟩

theorem modifyDictionary (ref : DictionaryRef) (f : Dictionary → Dictionary) :
    NeverFails (modifyDictionary ref f) := fun _ => ⟨_, _, rfl⟩

theorem addDictionary (dictionary : Dictionary) : NeverFails (addDictionary dictionary) :=
  fun _ => ⟨_, _, rfl⟩

theorem modifyTranslator (ref : TranslatorRef) (f : Translator → Translator) :
    NeverFails (modifyTranslator ref f) := fun _ => ⟨_, _, rfl⟩

theorem childCount (ref : DictionaryRef) : NeverFails (childCount ref) := fun _ => ⟨_, _, rfl⟩

theorem emitAttached (child : DictionaryRef) (priority : Value) (children : Nat) :
    NeverFails (emitAttached child priority children) := by
  refine bind (dictionary? child) fun found => ?_
  cases found with
  | none => exact pure ()
  | some dictionary => exact emit _

theorem removeText (ref : DictionaryRef) (key : Text) : NeverFails (removeText ref key) :=
  fun _ => ⟨_, _, rfl⟩

end NeverFails

theorem Quiet.failsQuietly {action : Action α} (h : Quiet action) : FailsQuietly action := by
  intro session hidle failure later hperform
  have hquiet := h session hidle
  rwa [hperform] at hquiet

theorem NeverFails.failsQuietly {action : Action α} (h : NeverFails action) :
    FailsQuietly action := by
  intro session _ failure later hperform
  obtain ⟨a, last, hdone⟩ := h session
  rw [hdone] at hperform
  cases hperform

namespace FailsQuietly

theorem throw (failure : Failure) : FailsQuietly (throw failure : Action α) :=
  (Quiet.throw failure).failsQuietly

/-- What comes before the first change may fail in its own ways. -/
theorem quiet_bind {action : Action α} {next : α → Action β} (haction : Quiet action)
    (hnext : ∀ a, FailsQuietly (next a)) : FailsQuietly (action >>= next) := by
  intro session hidle failure later hperform
  obtain ⟨hlibrary, htranslators⟩ := haction session hidle
  rw [perform_bind] at hperform
  generalize session.perform action = outcome at hlibrary htranslators hperform
  rcases outcome with ⟨refusal | a, between⟩
  · obtain ⟨-, rfl⟩ := Prod.mk.inj hperform
    exact ⟨hlibrary, htranslators⟩
  · have hbetween : between.Idle := by
      intro translator hmem
      exact hidle translator (by rwa [← htranslators])
    obtain ⟨hlibrary', htranslators'⟩ := hnext a between hbetween failure later hperform
    exact ⟨hlibrary'.trans hlibrary, htranslators'.trans htranslators⟩

/-- What comes after it must not fail. -/
theorem bind_neverFails {action : Action α} {next : α → Action β} (haction : FailsQuietly action)
    (hnext : ∀ a, NeverFails (next a)) : FailsQuietly (action >>= next) := by
  intro session hidle failure later hperform
  rw [perform_bind] at hperform
  rcases hfirst : session.perform action with ⟨refusal | a, between⟩
  · rw [hfirst] at hperform
    obtain ⟨-, rfl⟩ := Prod.mk.inj hperform
    exact haction session hidle refusal between hfirst
  · rw [hfirst] at hperform
    obtain ⟨b, last, hdone⟩ := hnext a between
    rw [show between.perform (next a) = (.error failure, later) from hperform] at hdone
    cases hdone

theorem map {action : Action α} (f : α → β) (haction : FailsQuietly action) :
    FailsQuietly (f <$> action) := by
  rw [map_eq_pure_bind]
  exact haction.bind_neverFails fun a => NeverFails.pure (f a)

/-- The lock is released in any case, so it makes no difference. -/
theorem writing {body : Action α} (hblind : LockBlind body) (hbody : FailsQuietly body)
    (ref : TranslatorRef) : FailsQuietly (writing ref body) := by
  intro session hidle failure later hperform
  rw [perform_writing hidle hblind ref] at hperform
  exact hbody session hidle failure later hperform

theorem createComposite (locale : Text) (items : List Item) (texts : List (Text × Text)) :
    FailsQuietly (createComposite locale items texts) :=
  quiet_bind (Quiet.gather [] items) fun _ => (NeverFails.addDictionary _).failsQuietly

/-- The place is looked at before anything is changed. -/
theorem takeChild (composite : DictionaryRef) (children : List DictionaryRef)
    (child : DictionaryRef) (priority : Value) :
    FailsQuietly (takeChild composite children child priority) := by
  unfold Session.takeChild
  split
  · exact throw _
  · exact (NeverFails.bind (NeverFails.modifyDictionary composite _) fun _ =>
      NeverFails.emitAttached child priority _).failsQuietly

theorem attach (composite : DictionaryRef) (item : Item) (priority : Value) :
    FailsQuietly (attach composite item priority) := by
  refine quiet_bind (Quiet.dictionary? composite) fun found => ?_
  split
  · split
    · exact throw _
    · exact takeChild _ _ _ _
  · exact throw _
  · exact quiet_bind (Quiet.dictionary? composite) fun _ => throw _

theorem chainFor (language : Text) (source : Source) : FailsQuietly (chainFor language source) := by
  cases source with
  | many items => exact createComposite language items []
  | one item =>
    cases item with
    | dictionary ref =>
      refine quiet_bind (Quiet.dictionary? ref) fun found => ?_
      split
      · exact (NeverFails.pure ref).failsQuietly
      · exact createComposite language _ []
    | absent => exact createComposite language [] []
    | iterable kind size => exact createComposite language _ []
    | other kind name => exact throw _

theorem checkLanguage (language : Text) : Quiet (checkLanguage language) := by
  unfold Session.checkLanguage
  split
  · exact Quiet.pure ()
  · exact Quiet.throw _

theorem createTranslator (language : Text) (source : Source) (options : Options) :
    FailsQuietly (createTranslator language source options) := by
  refine quiet_bind (checkLanguage language) fun _ => (chainFor language source).bind_neverFails ?_
  intro chain
  refine NeverFails.bind (NeverFails.modifyGet _) fun ref => ?_
  exact NeverFails.bind (NeverFails.childCount chain) fun _ =>
    NeverFails.bind (NeverFails.emit _) fun _ => NeverFails.pure ref

theorem createSystemTranslator (settings : Tag.Settings) (source : Source) (options : Options) :
    FailsQuietly (createSystemTranslator settings source options) := by
  unfold Session.createSystemTranslator
  split
  · exact throw _
  · exact createTranslator _ source options

theorem setLanguage (ref : TranslatorRef) (language : Text) :
    FailsQuietly (setLanguage ref language) := by
  have hblind : LockBlind (modifyTranslator ref fun translator => { translator with language }) :=
    LockBlind.modifyTranslator (fun _ _ => rfl) ref
  have hchange := writing hblind (NeverFails.modifyTranslator ref _).failsQuietly ref
  refine quiet_bind (checkLanguage language) fun _ => ?_
  exact quiet_bind (Quiet.translator? ref) fun _ =>
    hchange.bind_neverFails fun _ => NeverFails.emit _

theorem setChain (ref : TranslatorRef) (source : Source) : FailsQuietly (setChain ref source) := by
  refine quiet_bind (Quiet.translator? ref) fun found => ?_
  refine bind_neverFails (writing (lockBlind_replaceChain ref _ source) ?_ ref) fun chain => ?_
  · exact (chainFor _ source).bind_neverFails fun chain =>
      NeverFails.bind (NeverFails.modifyTranslator ref _) fun _ => NeverFails.pure chain
  · refine NeverFails.bind (NeverFails.dictionary? chain) fun dictionary => ?_
    cases dictionary with
    | none => exact NeverFails.pure ()
    | some dictionary => exact NeverFails.emit _

theorem attachToTranslator (ref : TranslatorRef) (item : Item) (priority : Value) :
    FailsQuietly (attachToTranslator ref item priority) :=
  writing (LockBlind.attachToChain ref item priority)
    (quiet_bind (Quiet.chainOf ref) fun chain => attach chain item priority) ref

/-- Operations that only ask are quiet, and those that only fill do not fail. -/
theorem action (operation : Operation) : FailsQuietly operation.action := by
  cases operation with
  | createSimple locale texts => exact map _ (NeverFails.addDictionary _).failsQuietly
  | createForeign lookup listing => exact map _ (NeverFails.addDictionary _).failsQuietly
  | createComposite locale items texts => exact map _ (createComposite locale items texts)
  | attach composite item priority => exact map _ (attach composite item priority)
  | setText ref key text comment => exact map _ (NeverFails.modifyDictionary ref _).failsQuietly
  | updateTexts ref texts => exact map _ (NeverFails.modifyDictionary ref _).failsQuietly
  | replaceTexts ref texts => exact map _ (NeverFails.modifyDictionary ref _).failsQuietly
  | removeText ref key => exact map _ (NeverFails.removeText ref key).failsQuietly
  | createTranslator language source options =>
    exact map _ (createTranslator language source options)
  | createSystemTranslator settings source options =>
    exact map _ (createSystemTranslator settings source options)
  | setLanguage ref language => exact map _ (setLanguage ref language)
  | setChain ref source => exact map _ (setChain ref source)
  | attachToTranslator ref item priority => exact map _ (attachToTranslator ref item priority)
  | hasText ref key => exact map _ (Quiet.hasText ref key).failsQuietly
  | translate ref key args => exact map _ (Quiet.translate ref key args).failsQuietly
  | translatePlural ref key count args =>
    exact map _ (Quiet.translatePlural ref key count args).failsQuietly
  | reviewText ref key => exact map _ (Quiet.reviewText ref key).failsQuietly

end FailsQuietly

theorem isLanguageTag_iff (language : Text) :
    isLanguageTag language ↔
      (∀ c ∈ language, c.isAlphanum ∨ c = '_' ∨ c = '-') ∧ ∃ c ∈ language, c.isAlphanum := by
  have hsigns : ∀ c : Char, c.isAlphanum → c ≠ '_' ∧ c ≠ '-' := by
    rintro c hc
    constructor <;> rintro rfl <;> exact absurd hc (by decide)
  simp only [isLanguageTag, Bool.and_eq_true, Bool.not_eq_true', List.isEmpty_eq_false_iff,
    List.all_eq_true, List.mem_filter, bne_iff_ne, ne_eq, List.filter_eq_nil_iff, not_forall]
  constructor
  · rintro ⟨⟨c, hmem, hcore⟩, hall⟩
    refine ⟨fun c hc => ?_, c, hmem, hall c ⟨hmem, not_not.1 hcore⟩⟩
    by_cases hlow : c = '_'
    · exact Or.inr (Or.inl hlow)
    by_cases hhyphen : c = '-'
    · exact Or.inr (Or.inr hhyphen)
    · exact Or.inl (hall c ⟨hc, hlow, hhyphen⟩)
  · rintro ⟨hall, c, hmem, hc⟩
    refine ⟨⟨c, hmem, not_not.2 (hsigns c hc)⟩, fun c hcore => ?_⟩
    obtain ⟨hmem, hlow, hhyphen⟩ := hcore
    rcases hall c hmem with hc | rfl | rfl
    · exact hc
    · exact absurd rfl hlow
    · exact absurd rfl hhyphen

variable {session : Session}

/-- A translator gets its language where it is made or where the language is set. -/
theorem Changes.isLanguageTag {later : Session} (h : Changes session later)
    (hlanguages : ∀ translator ∈ session.translators, isLanguageTag translator.language) :
    ∀ translator ∈ later.translators, isLanguageTag translator.language := by
  induction h with
  | refl => exact hlanguages
  | tail _ hchange ih =>
    intro translator hmem
    cases hchange with
    | noted _ htranslators => exact ih translator (by rwa [← htranslators])
    | added _ _ _ htranslators => exact ih translator (by rwa [← htranslators])
    | filled _ _ _ htranslators => exact ih translator (by rwa [← htranslators])
    | attached _ _ _ _ _ _ _ _ _ _ htranslators => exact ih translator (by rwa [← htranslators])
    | translatorAdded added hlanguage _ _ _ htranslators =>
      rw [htranslators] at hmem
      rcases List.mem_append.1 hmem with hold | hnew
      · exact ih translator hold
      · obtain rfl := List.mem_singleton.1 hnew
        exact hlanguage
    | languageSet ref language hlanguage _ htranslators =>
      rw [htranslators] at hmem
      obtain ⟨former, hformer, rfl | rfl⟩ := mem_of_mem_modify hmem
      · exact ih translator hformer
      · exact hlanguage
    | chainSet ref chain _ _ htranslators =>
      rw [htranslators] at hmem
      obtain ⟨former, hformer, rfl | rfl⟩ := mem_of_mem_modify hmem
      · exact ih translator hformer
      · exact ih former hformer

theorem Reachable.isLanguageTag (h : session.Reachable) :
    ∀ translator ∈ session.translators, isLanguageTag translator.language := by
  induction h with
  | start => simp
  | step operation hreachable hnames ih =>
    exact (after_changes hreachable.sound.idle hnames).isLanguageTag ih

/-- Whatever operation fails in whatever way, all dictionaries and translators are as they were,
and none was added. Every translator has a language of ASCII letters, digits, low lines and
hyphens, of which one at least is a letter or a digit. -/
theorem Reachable.failure_changes_nothing (hreachable : session.Reachable) :
    (∀ operation failure, (session.perform operation.action).1 = .error failure →
      (session.after operation).library = session.library ∧
        (session.after operation).translators = session.translators) ∧
    ∀ translator ∈ session.translators,
      (∀ c ∈ translator.language, c.isAlphanum ∨ c = '_' ∨ c = '-') ∧
        ∃ c ∈ translator.language, c.isAlphanum := by
  constructor
  · intro operation failure hfailure
    have hidle := hreachable.sound.idle
    exact FailsQuietly.action operation session hidle failure _ (Prod.ext hfailure rfl)
  · intro translator hmem
    exact (isLanguageTag_iff translator.language).1 (hreachable.isLanguageTag translator hmem)

def desk : Session :=
  (((({} : Session).after (.createSimple "en_US" [("save", "Save")])).after
    (.setText 0 "open" "Open" (some "a door"))).after
      (.createTranslator "en_US" (.many [.dictionary 0]) { threadSafe := true }))

theorem reachable_desk : desk.Reachable := by
  refine .step _ (.step _ (.step _ .start trivial) Nat.zero_lt_one) ?_
  rintro item hitem ref rfl
  obtain rfl : ref = 0 := by simpa [Source.items] using hitem
  exact Nat.zero_lt_one

/-- What is no dictionary is found behind one that is, a child is refused for the chain itself, and
another one for a place that is none. -/
theorem failure_changes_nothing_desk :
    (desk.perform (Operation.setChain 0
      (.many [.dictionary 0, .other "int" "int"])).action).1 = .error (.notDictionary "int") ∧
    (desk.after (.setChain 0 (.many [.dictionary 0, .other "int" "int"]))).translators =
      desk.translators ∧
    (desk.perform (Operation.attachToTranslator 0 (.dictionary 1) .absent).action).1 =
      .error .containsItself ∧
    (desk.after (.attachToTranslator 0 (.dictionary 1) .absent)).library = desk.library ∧
    (desk.perform (Operation.attachToTranslator 0 (.dictionary 0) (.text "first")).action).1 =
      .error (.noPlace (.notWhole "str")) ∧
    (desk.after (.attachToTranslator 0 (.dictionary 0) (.text "first"))).library = desk.library ∧
    ∃ translator ∈ desk.translators, ∃ c ∈ translator.language, c.isAlphanum := by
  obtain ⟨hfailures, hlanguages⟩ := reachable_desk.failure_changes_nothing
  have hmember : (desk.perform (Operation.setChain 0
      (.many [.dictionary 0, .other "int" "int"])).action).1 = .error (.notDictionary "int") := rfl
  have hself : (desk.perform (Operation.attachToTranslator 0 (.dictionary 1) .absent).action).1 =
      .error .containsItself := rfl
  have hplace :
      (desk.perform (Operation.attachToTranslator 0 (.dictionary 0) (.text "first")).action).1 =
        .error (.noPlace (.notWhole "str")) := rfl
  obtain ⟨translator, hmem⟩ : ∃ translator, translator ∈ desk.translators :=
    ⟨_, List.mem_cons_self⟩
  exact ⟨hmember, (hfailures _ _ hmember).2, hself, (hfailures _ _ hself).1, hplace,
    (hfailures _ _ hplace).1, translator, hmem, (hlanguages translator hmem).2⟩

end Phrasebook.Session
