import Mathlib.Logic.Relation
import Phrasebook.Proofs.Dictionary.Containment
import Phrasebook.Proofs.Session.Operation

/-!
Whatever an operation is and whether it fails, what it does to the dictionaries and translators is
a sequence of changes of seven kinds. Each kind keeps what is true of a session from its start:
children are dictionaries of the library and not their own children, chains are composite, and
locks are idle. So all of this holds in every session that comes about.
-/
namespace Phrasebook.Session

inductive Change (session later : Session) : Prop
  | noted (hlibrary : later.library = session.library)
      (htranslators : later.translators = session.translators)
  | added (dictionary : Dictionary)
      (hchildren : ∀ child ∈ dictionary.children, child < session.library.size)
      (hlibrary : later.library = (session.library.add dictionary).2)
      (htranslators : later.translators = session.translators)
  | filled (ref : DictionaryRef) (entries : Dictionary → OrderedMap Entry)
      (hlibrary : later.library =
        session.library.modify ref fun dictionary => dictionary.withEntries (entries dictionary))
      (htranslators : later.translators = session.translators)
  | attached (composite child : DictionaryRef) (place : Option Int) (locale : Text)
      (entries : OrderedMap Entry) (children : List DictionaryRef)
      (hget : session.library.get? composite = some (.composite locale entries children))
      (hne : child ≠ composite) (hchild : child < session.library.size)
      (hlibrary : later.library = session.library.modify composite
        (Dictionary.withChildren (Library.insertAt children child place)))
      (htranslators : later.translators = session.translators)
  | translatorAdded (translator : Translator) (hlanguage : isLanguageTag translator.language)
      (hchain : session.library.IsComposite translator.chain)
      (hlock : ∀ lock, translator.lock = some lock → lock = {})
      (hlibrary : later.library = session.library)
      (htranslators : later.translators = session.translators ++ [translator])
  | languageSet (ref : TranslatorRef) (language : Text) (hlanguage : isLanguageTag language)
      (hlibrary : later.library = session.library)
      (htranslators : later.translators =
        session.translators.modify ref fun translator => { translator with language })
  | chainSet (ref : TranslatorRef) (chain : DictionaryRef)
      (hchain : session.library.IsComposite chain)
      (hlibrary : later.library = session.library)
      (htranslators : later.translators =
        session.translators.modify ref fun translator => { translator with chain })

abbrev Changes : Session → Session → Prop := Relation.ReflTransGen Change

/-- An action leaves dictionaries and translators alone, while the locks are idle. -/
def Quiet {α : Type} (action : Action α) : Prop :=
  ∀ session : Session, session.Idle →
    (session.perform action).2.library = session.library ∧
      (session.perform action).2.translators = session.translators

namespace Quiet

variable {α β : Type}

theorem changes {action : Action α} (h : Quiet action) {session : Session}
    (hidle : session.Idle) : Changes session (session.perform action).2 := by
  obtain ⟨hlibrary, htranslators⟩ := h session hidle
  exact Relation.ReflTransGen.single (.noted hlibrary htranslators)

theorem pure (a : α) : Quiet (pure a : Action α) := fun _ _ => ⟨rfl, rfl⟩

theorem throw (failure : Failure) : Quiet (throw failure : Action α) := fun _ _ => ⟨rfl, rfl⟩

theorem bind {action : Action α} {next : α → Action β} (haction : Quiet action)
    (hnext : ∀ a, Quiet (next a)) : Quiet (action >>= next) := by
  intro session hidle
  obtain ⟨hlibrary, htranslators⟩ := haction session hidle
  rw [perform_bind]
  generalize session.perform action = outcome at hlibrary htranslators ⊢
  rcases outcome with ⟨failure | a, later⟩
  · exact ⟨hlibrary, htranslators⟩
  · have hlater : later.Idle := by
      intro translator hmem
      exact hidle translator (by rwa [← htranslators])
    obtain ⟨hlibrary', htranslators'⟩ := hnext a later hlater
    exact ⟨hlibrary'.trans hlibrary, htranslators'.trans htranslators⟩

theorem emit (event : Log.Event) : Quiet (emit event) := fun _ _ => ⟨rfl, rfl⟩

theorem dictionary? (ref : DictionaryRef) : Quiet (dictionary? ref) := fun _ _ => ⟨rfl, rfl⟩

theorem translator? (ref : TranslatorRef) : Quiet (translator? ref) := fun _ _ => ⟨rfl, rfl⟩

theorem chainOf (ref : TranslatorRef) : Quiet (chainOf ref) := fun _ _ => ⟨rfl, rfl⟩

theorem getText (ref : DictionaryRef) (key : Text) : Quiet (getText ref key) := by
  intro session _
  simp

theorem reading {body : Action α} (hquiet : Quiet body) (hblind : LockBlind body)
    (ref : TranslatorRef) : Quiet (reading ref body) := by
  intro session hidle
  rw [perform_reading hidle hblind ref]
  exact hquiet session hidle

end Quiet

variable {session : Session}

/-- The log entry for a child changes neither dictionaries nor translators. -/
theorem Quiet.emitAttached (child : DictionaryRef) (priority : Value) (children : Nat) :
    Quiet (emitAttached child priority children) := by
  refine Quiet.bind (Quiet.dictionary? child) fun found => ?_
  cases found with
  | none => exact Quiet.pure ()
  | some dictionary => exact Quiet.emit _

/-- A child that has its place is one change, and the log is another. -/
theorem takeChild_changes (hidle : session.Idle) {composite child : DictionaryRef} {locale : Text}
    {entries : OrderedMap Entry} {children : List DictionaryRef}
    (hget : session.library.get? composite = some (.composite locale entries children))
    (hne : child ≠ composite) (hchild : child < session.library.size) (priority : Value) :
    Changes session (session.perform (takeChild composite children child priority)).2 := by
  unfold takeChild
  cases hinsert : Library.insertChild children child priority with
  | error reason => exact Relation.ReflTransGen.refl
  | ok inserted =>
    obtain ⟨place, rfl⟩ := Library.exists_insertAt hinsert
    let library := session.library.modify composite
      (Dictionary.withChildren (Library.insertAt children child place))
    have hattached : Change session { session with library } :=
      .attached composite child place locale entries children hget hne hchild rfl rfl
    exact Relation.ReflTransGen.head hattached
      (Quiet.changes (Quiet.emitAttached child priority _) hidle)

theorem attach_changes (hidle : session.Idle) (composite : DictionaryRef) {item : Item}
    (hoffers : session.Offers item) (priority : Value) :
    Changes session (session.perform (attach composite item priority)).2 := by
  simp only [attach, perform_bind, perform_dictionary?]
  split
  · next locale entries children child hget =>
    split
    · exact Relation.ReflTransGen.refl
    · next hne => exact takeChild_changes hidle hget hne (hoffers child rfl) priority
  · exact Relation.ReflTransGen.refl
  · exact Relation.ReflTransGen.refl

theorem Quiet.gather (children : List DictionaryRef) (items : List Item) :
    Quiet (gather children items) := by
  induction items generalizing children with
  | nil => exact Quiet.pure children
  | cons item items ih =>
    cases item with
    | dictionary ref => exact Quiet.bind (Quiet.emitAttached _ _ _) fun _ => ih _
    | absent => exact Quiet.throw _
    | iterable kind size => exact Quiet.throw _
    | other kind name => exact Quiet.throw _

/-- The children that are taken are those that were there and those that are offered. -/
theorem mem_of_gather {children gathered : List DictionaryRef} {items : List Item}
    {later : Session} (h : session.perform (gather children items) = (.ok gathered, later))
    {child : DictionaryRef} (hchild : child ∈ gathered) :
    child ∈ children ∨ .dictionary child ∈ items := by
  induction items generalizing session children with
  | nil =>
    simp only [gather, perform_pure, Prod.mk.injEq, Except.ok.injEq] at h
    exact Or.inl (h.1 ▸ hchild)
  | cons item items ih =>
    cases item with
    | dictionary ref =>
      simp only [Session.gather, perform_bind] at h
      split at h
      · next logged hlogged =>
        rcases ih h with hmem | hmem
        · rcases List.mem_append.1 hmem with hold | hnew
          · exact Or.inl hold
          · obtain rfl := List.mem_singleton.1 hnew
            exact Or.inr List.mem_cons_self
        · exact Or.inr (List.mem_cons_of_mem _ hmem)
      · cases h
    | absent => cases h
    | iterable kind size => cases h
    | other kind name => cases h

/-- An action changes dictionaries at most, and the dictionary it gives, if any, is composite. -/
def MakesComposite (session : Session) (action : Action DictionaryRef) : Prop :=
  Changes session (session.perform action).2 ∧
    (session.perform action).2.translators = session.translators ∧
    ∀ ref, (session.perform action).1 = .ok ref →
      (session.perform action).2.library.IsComposite ref

theorem createComposite_makes (hidle : session.Idle) (locale : Text) {items : List Item}
    (hoffers : ∀ item ∈ items, session.Offers item) (texts : List (Text × Text)) :
    MakesComposite session (createComposite locale items texts) := by
  obtain ⟨hlibrary, htranslators⟩ := Quiet.gather [] items session hidle
  unfold MakesComposite createComposite
  rw [perform_bind]
  rcases hgather : session.perform (gather [] items) with ⟨failure | children, later⟩
  · rw [hgather] at hlibrary htranslators
    exact ⟨Relation.ReflTransGen.single (.noted hlibrary htranslators), htranslators,
      fun ref h => by cases h⟩
  · rw [hgather] at hlibrary htranslators
    have hchildren : ∀ child ∈ children, child < session.library.size := by
      intro child hchild
      rcases mem_of_gather hgather hchild with hmem | hmem
      · cases hmem
      · exact hoffers _ hmem child rfl
    refine ⟨Relation.ReflTransGen.single (.added
      (.composite locale (.ofList (Dictionary.plainEntries texts)) children) hchildren ?_
      htranslators), htranslators, ?_⟩
    · rw [← hlibrary]
      rfl
    · rintro ref ⟨⟩
      exact ⟨locale, .ofList (Dictionary.plainEntries texts), children,
        by simp [Library.get?, Library.add, Library.size]⟩

theorem chainFor_makes (hidle : session.Idle) (language : Text) {source : Source}
    (hoffers : ∀ item ∈ source.items, session.Offers item) :
    MakesComposite session (chainFor language source) := by
  have hnothing : ∀ item ∈ ([] : List Item), session.Offers item := by simp
  cases source with
  | many items => exact createComposite_makes hidle language hoffers []
  | one item =>
    cases item with
    | dictionary ref =>
      unfold MakesComposite chainFor
      simp only [perform_bind, perform_dictionary?]
      split
      · next locale entries children hget =>
        refine ⟨Relation.ReflTransGen.refl, rfl, ?_⟩
        rintro _ ⟨⟩
        exact ⟨locale, entries, children, hget⟩
      · exact createComposite_makes hidle language hoffers []
    | absent => exact createComposite_makes hidle language hnothing []
    | iterable kind size =>
      refine createComposite_makes hidle language (fun item hitem ref href => ?_) []
      rw [List.eq_of_mem_replicate hitem] at href
      cases href
    | other kind name => exact ⟨Relation.ReflTransGen.refl, rfl, fun ref h => by cases h⟩

theorem createTranslator_changes (hidle : session.Idle) (language : Text) {source : Source}
    (hoffers : ∀ item ∈ source.items, session.Offers item) (options : Options) :
    Changes session (session.perform (createTranslator language source options)).2 := by
  obtain ⟨hchanges, _, hcomposite⟩ := chainFor_makes hidle language hoffers
  by_cases hlanguage : isLanguageTag language
  · simp only [createTranslator, checkLanguage, if_pos hlanguage, perform_bind, perform_pure]
    rcases hchain : session.perform (chainFor language source) with ⟨failure | chain, later⟩
    · rwa [hchain] at hchanges
    · rw [hchain] at hchanges hcomposite
      let translator : Translator :=
        { language, silent := options.silent, chain, observer := options.observer,
          lock := if options.threadSafe then some {} else none }
      have hlock : ∀ lock, translator.lock = some lock → lock = {} := by
        intro lock h
        by_cases hsafe : options.threadSafe <;> simp [translator, hsafe] at h
        exact h.symm
      exact Relation.ReflTransGen.tail hchanges
        (.translatorAdded translator hlanguage (hcomposite chain rfl) hlock rfl rfl)
  · simp only [createTranslator, checkLanguage, if_neg hlanguage, perform_bind, perform_throw]
    exact Relation.ReflTransGen.refl

theorem setLanguage_changes (hidle : session.Idle) (ref : TranslatorRef) (language : Text) :
    Changes session (session.perform (setLanguage ref language)).2 := by
  have hblind : LockBlind (modifyTranslator ref fun translator => { translator with language }) :=
    LockBlind.modifyTranslator (fun _ _ => rfl) ref
  by_cases hlanguage : isLanguageTag language
  · simp only [setLanguage, checkLanguage, if_pos hlanguage, perform_bind, perform_pure,
      perform_translator?, perform_writing hidle hblind, perform_modifyTranslator]
    exact Relation.ReflTransGen.single (.languageSet ref language hlanguage rfl rfl)
  · simp only [setLanguage, checkLanguage, if_neg hlanguage, perform_bind, perform_throw]
    exact Relation.ReflTransGen.refl

/-- The part of replacing a chain that is done under the lock. -/
theorem lockBlind_replaceChain (ref : TranslatorRef) (language : Text) (source : Source) :
    LockBlind (do
      let chain ← chainFor language source
      modifyTranslator ref fun translator => { translator with chain }
      return chain) :=
  LockBlind.bind (LockBlind.chainFor language source) fun _ =>
    LockBlind.bind (LockBlind.modifyTranslator (fun _ _ => rfl) ref) fun _ => LockBlind.pure _

theorem setChain_changes (hidle : session.Idle) (ref : TranslatorRef) {source : Source}
    (hoffers : ∀ item ∈ source.items, session.Offers item) :
    Changes session (session.perform (setChain ref source)).2 := by
  simp only [setChain, perform_bind, perform_translator?,
    perform_writing hidle (lockBlind_replaceChain ref _ source)]
  generalize ((session.translators[ref]?).map Translator.language).getD [] = language
  obtain ⟨hchanges, _, hcomposite⟩ := chainFor_makes hidle language hoffers
  rcases hchain : session.perform (chainFor language source) with ⟨failure | chain, later⟩
  · rwa [hchain] at hchanges
  · rw [hchain] at hchanges hcomposite
    simp only [perform_modifyTranslator, perform_pure, perform_dictionary?]
    split <;> exact Relation.ReflTransGen.tail hchanges
      (.chainSet ref chain (hcomposite chain rfl) rfl rfl)

theorem attachToTranslator_changes (hidle : session.Idle) (ref : TranslatorRef) {item : Item}
    (hoffers : session.Offers item) (priority : Value) :
    Changes session (session.perform (attachToTranslator ref item priority)).2 := by
  rw [attachToTranslator, perform_writing hidle (LockBlind.attachToChain ref item priority)]
  exact attach_changes hidle _ hoffers priority

namespace Quiet

theorem hasText (ref : TranslatorRef) (key : Text) : Quiet (hasText ref key) := by
  refine reading ?_ ?_ ref
  · exact bind (chainOf ref) fun chain => bind (getText chain key) fun _ => pure _
  · exact LockBlind.bind (LockBlind.chainOf ref) fun chain =>
      LockBlind.bind (LockBlind.getText chain key) fun _ => LockBlind.pure _

theorem observe (ref : TranslatorRef) (key language : Text) (observer : Observer) :
    Quiet (observe ref key language observer) := by
  intro session _
  simp only [Session.observe, perform_bind, perform_get, perform_modify]
  cases observer.complaint? (session.missed ++ [⟨ref, key, language⟩]) <;> exact ⟨rfl, rfl⟩

theorem resolve (ref : TranslatorRef) (translator : Translator) (key : Text) :
    Quiet (resolve ref translator key) := by
  refine bind (reading (getText _ key) (LockBlind.getText _ key) ref) fun found => ?_
  cases found with
  | some text => exact pure _
  | none =>
    have hpolicy : Quiet (if translator.silent then Pure.pure (key, translator.language)
        else MonadExcept.throw (.fault (.missingTranslation key translator.language)) :
          Action (Text × Text)) := by
      split
      · exact pure _
      · exact throw _
    refine bind (emit _) fun _ => ?_
    cases translator.observer with
    | none => exact hpolicy
    | some observer => exact bind (observe ref key _ observer) fun _ => hpolicy

theorem lookup (ref : TranslatorRef) (key : Text) : Quiet (lookup ref key) := by
  refine bind (translator? ref) fun found => ?_
  cases found with
  | none => exact pure _
  | some translator => exact resolve ref translator key

theorem tableFor (text : Text) (args : Placeholder.Args) (reserved : List Text) :
    Quiet (tableFor text args reserved) := by
  unfold Session.tableFor
  split
  · exact pure _
  all_goals exact throw _

theorem insertedCount (count : Number) : Quiet (insertedCount count) := by
  unfold Session.insertedCount
  split
  · exact pure _
  · exact throw _

theorem chooseText (text : Text) (count : Number) (language : Text) :
    Quiet (chooseText text count language) := by
  unfold Session.chooseText
  split
  · split
    · exact pure _
    · exact bind (emit _) fun _ => pure _
  all_goals exact throw _

theorem translate (ref : TranslatorRef) (key : Text) (args : Placeholder.Args) :
    Quiet (translate ref key args) :=
  bind (lookup ref key) fun _ => bind (tableFor _ args []) fun _ => bind (emit _) fun _ => pure _

theorem translatePlural (ref : TranslatorRef) (key : Text) (count : Number)
    (args : Placeholder.Args) : Quiet (translatePlural ref key count args) :=
  bind (lookup ref key) fun _ => bind (chooseText _ count _) fun _ =>
    bind (tableFor _ args _) fun _ => bind (insertedCount count) fun _ =>
      bind (emit _) fun _ => pure _

theorem reviewText (ref : TranslatorRef) (key : Text) : Quiet (reviewText ref key) :=
  bind (lookup ref key) fun _ => bind (emit _) fun _ => pure _

end Quiet

/-- Every operation is a sequence of changes, be it answered or failed. -/
theorem after_changes (hidle : session.Idle) {operation : Operation}
    (hnames : session.Names operation) : Changes session (session.after operation) := by
  unfold after
  cases operation <;> simp only [Operation.action, perform_map]
  case createSimple locale texts =>
    exact Relation.ReflTransGen.single (.added
      (.simple locale (.ofList (Dictionary.plainEntries texts))) (by simp [Dictionary.children])
      rfl rfl)
  case createForeign lookup listing =>
    exact Relation.ReflTransGen.single
      (.added (.foreign (.ofList lookup) (.ofList listing)) (by simp [Dictionary.children]) rfl rfl)
  case createComposite locale items texts =>
    exact (createComposite_makes hidle locale hnames texts).1
  case attach composite item priority => exact attach_changes hidle composite hnames.2 priority
  case setText ref key text comment =>
    exact Relation.ReflTransGen.single
      (.filled ref (fun dictionary => dictionary.entries.set key ⟨key, text, comment⟩) rfl rfl)
  case updateTexts ref texts =>
    exact Relation.ReflTransGen.single (.filled ref
      (fun dictionary => dictionary.entries.setAll (Dictionary.plainEntries texts)) rfl rfl)
  case replaceTexts ref texts =>
    exact Relation.ReflTransGen.single
      (.filled ref (fun _ => .ofList (Dictionary.plainEntries texts)) rfl rfl)
  case removeText ref key =>
    exact Relation.ReflTransGen.single
      (.filled ref (fun dictionary => dictionary.entries.erase key) rfl rfl)
  case createTranslator language source options =>
    exact createTranslator_changes hidle language hnames options
  case createSystemTranslator settings source options =>
    unfold createSystemTranslator
    split
    · exact Relation.ReflTransGen.refl
    · exact createTranslator_changes hidle _ hnames options
  case setLanguage ref language => exact setLanguage_changes hidle ref language
  case setChain ref source => exact setChain_changes hidle ref hnames.2
  case attachToTranslator ref item priority =>
    exact attachToTranslator_changes hidle ref hnames.2 priority
  case hasText ref key => exact (Quiet.hasText ref key).changes hidle
  case translate ref key args => exact (Quiet.translate ref key args).changes hidle
  case translatePlural ref key count args =>
    exact (Quiet.translatePlural ref key count args).changes hidle
  case reviewText ref key => exact (Quiet.reviewText ref key).changes hidle

theorem mem_of_mem_modify {translators : List Translator} {ref : TranslatorRef}
    {f : Translator → Translator} {translator : Translator}
    (h : translator ∈ translators.modify ref f) :
    ∃ former ∈ translators, translator = former ∨ translator = f former := by
  obtain ⟨i, hi⟩ := List.mem_iff_getElem?.1 h
  rw [List.getElem?_modify] at hi
  obtain ⟨former, hformer, hlater⟩ := Option.map_eq_some_iff.1 hi
  refine ⟨former, List.mem_of_getElem? hformer, ?_⟩
  by_cases href : ref = i
  · rw [if_pos href] at hlater
    exact Or.inr hlater.symm
  · rw [if_neg href] at hlater
    exact Or.inl hlater.symm

/-- What holds of the dictionaries and translators of a session at all times. -/
structure Sound (session : Session) : Prop where
  closed : session.library.Closed
  not_own_child : ∀ ref, ¬ session.library.Child ref ref
  composite_chain : ∀ translator ∈ session.translators,
    session.library.IsComposite translator.chain
  idle : session.Idle

namespace Sound

theorem start : Sound {} where
  closed := by rintro parent child ⟨dictionary, hget, -⟩; simp [Library.get?] at hget
  not_own_child := by rintro ref ⟨dictionary, hget, -⟩; simp [Library.get?] at hget
  composite_chain := by simp
  idle := by simp [Idle]

/-- The translators matter if the dictionaries stay. -/
theorem of_library {later : Session} (hsound : session.Sound)
    (hlibrary : later.library = session.library)
    (hchain : ∀ translator ∈ later.translators, session.library.IsComposite translator.chain)
    (hidle : later.Idle) : later.Sound := by
  constructor
  · rw [hlibrary]
    exact hsound.closed
  · rw [hlibrary]
    exact hsound.not_own_child
  · rw [hlibrary]
    exact hchain
  · exact hidle

/-- The dictionaries matter if the translators stay. -/
theorem of_translators {later : Session} (hsound : session.Sound)
    (htranslators : later.translators = session.translators)
    (hclosed : later.library.Closed) (hself : ∀ ref, ¬ later.library.Child ref ref)
    (hkept : ∀ ref, session.library.IsComposite ref → later.library.IsComposite ref) :
    later.Sound := by
  refine ⟨hclosed, hself, ?_, ?_⟩
  · intro translator hmem
    rw [htranslators] at hmem
    exact hkept translator.chain (hsound.composite_chain translator hmem)
  · intro translator hmem
    rw [htranslators] at hmem
    exact hsound.idle translator hmem

/-- A translator may change as long as its lock stays and its chain is composite. -/
theorem of_modify {later : Session} (hsound : session.Sound)
    (hlibrary : later.library = session.library) {ref : TranslatorRef}
    {f : Translator → Translator}
    (htranslators : later.translators = session.translators.modify ref f)
    (hlock : ∀ translator, (f translator).lock = translator.lock)
    (hchain : ∀ translator ∈ session.translators,
      session.library.IsComposite (f translator).chain) : later.Sound := by
  apply hsound.of_library hlibrary
  · intro translator hmem
    rw [htranslators] at hmem
    obtain ⟨former, hformer, rfl | rfl⟩ := mem_of_mem_modify hmem
    · exact hsound.composite_chain translator hformer
    · exact hchain former hformer
  · intro translator hmem
    rw [htranslators] at hmem
    obtain ⟨former, hformer, rfl | rfl⟩ := mem_of_mem_modify hmem
    · exact hsound.idle translator hformer
    · intro lock hown
      rw [hlock] at hown
      exact hsound.idle former hformer lock hown

theorem change {later : Session} (hsound : session.Sound) (h : Change session later) :
    later.Sound := by
  cases h with
  | noted hlibrary htranslators =>
    apply hsound.of_library hlibrary
    · rw [htranslators]
      exact hsound.composite_chain
    · intro translator hmem
      rw [htranslators] at hmem
      exact hsound.idle translator hmem
  | added dictionary hchildren hlibrary htranslators =>
    apply hsound.of_translators htranslators
    · intro parent child hchild
      rw [hlibrary, Library.child_add] at hchild
      rw [hlibrary, Library.size_add]
      rcases hchild with hold | ⟨_, hnew⟩
      · exact Nat.lt_succ_of_lt (hsound.closed parent child hold)
      · exact Nat.lt_succ_of_lt (hchildren child hnew)
    · intro ref hchild
      rw [hlibrary, Library.child_add] at hchild
      rcases hchild with hold | ⟨rfl, hnew⟩
      · exact hsound.not_own_child ref hold
      · exact absurd (hchildren _ hnew) (Nat.lt_irrefl _)
    · intro ref hcomposite
      rw [hlibrary]
      exact hcomposite.add dictionary
  | filled ref entries hlibrary htranslators =>
    have hsame : ∀ parent child, later.library.Child parent child ↔
        session.library.Child parent child := by
      rw [hlibrary]
      exact Library.child_modify session.library ref fun dictionary => by simp
    apply hsound.of_translators htranslators
    · intro parent child hchild
      rw [hlibrary, Library.size_modify]
      exact hsound.closed parent child ((hsame parent child).1 hchild)
    · intro other hchild
      exact hsound.not_own_child other ((hsame other other).1 hchild)
    · intro other hcomposite
      rw [hlibrary]
      exact hcomposite.modify ref fun dictionary => by cases dictionary <;> rfl
  | attached composite child place locale entries children hget hne hchild hlibrary
      htranslators =>
    have hsame : ∀ parent below, later.library.Child parent below ↔
        session.library.Child parent below ∨ parent = composite ∧ below = child := by
      rw [hlibrary]
      exact Library.child_attach hget child place
    apply hsound.of_translators htranslators
    · rw [hlibrary]
      exact hsound.closed.attach hget hchild place
    · intro ref hself
      rcases (hsame ref ref).1 hself with hold | ⟨rfl, hown⟩
      · exact hsound.not_own_child ref hold
      · exact hne hown.symm
    · intro ref hcomposite
      rw [hlibrary]
      exact hcomposite.modify composite fun dictionary => by cases dictionary <;> rfl
  | translatorAdded translator hlanguage hchain hlock hlibrary htranslators =>
    apply hsound.of_library hlibrary
    · rw [htranslators]
      intro other hmem
      rcases List.mem_append.1 hmem with hold | hnew
      · exact hsound.composite_chain other hold
      · obtain rfl := List.mem_singleton.1 hnew
        exact hchain
    · intro other hmem
      rw [htranslators] at hmem
      rcases List.mem_append.1 hmem with hold | hnew
      · exact hsound.idle other hold
      · obtain rfl := List.mem_singleton.1 hnew
        exact hlock
  | languageSet ref language hlanguage hlibrary htranslators =>
    exact hsound.of_modify hlibrary htranslators (fun _ => rfl) hsound.composite_chain
  | chainSet ref chain hchain hlibrary htranslators =>
    exact hsound.of_modify hlibrary htranslators (fun _ => rfl) fun _ _ => hchain

theorem changes {later : Session} (hsound : session.Sound) (h : Changes session later) :
    later.Sound := by
  induction h with
  | refl => exact hsound
  | tail _ hchange ih => exact ih.change hchange

end Sound

/-- Every session that operations lead to is sound. -/
theorem Reachable.sound (h : Reachable session) : session.Sound := by
  induction h with
  | start => exact Sound.start
  | step operation _ hnames ih => exact ih.changes (after_changes ih.idle hnames)

end Phrasebook.Session
