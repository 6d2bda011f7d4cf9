import Phrasebook.Proofs.Session.Notices

/-!
After any run of operations, the warnings have grown by the misses of the run in their order, and
so has what the observer of a translator was told of this translator's. A miss is a question at
the moment of which the chain has no text for the key; its language is the one at that moment.
-/
namespace Phrasebook.Session

def Operation.asks? : Operation → Option (TranslatorRef × Text)
  | .translate ref key _ | .translatePlural ref key _ _ | .reviewText ref key => some (ref, key)
  | _ => none

/-- What an operation misses at this moment. -/
def missBy? (session : Session) (operation : Operation) : Option Miss := do
  let (ref, key) ← operation.asks?
  let translator ← session.translators[ref]?
  match session.library.lookup translator.chain key with
  | .ok none => some ⟨ref, key, translator.language⟩
  | _ => none

def run (session : Session) (operations : List Operation) : Session :=
  operations.foldl after session

/-- Every object that one of the operations names is there when its turn comes. -/
def NamesEach : Session → List Operation → Prop
  | _, [] => True
  | session, operation :: operations =>
    session.Names operation ∧ (session.after operation).NamesEach operations

def misses : Session → List Operation → List Miss
  | _, [] => []
  | session, operation :: operations =>
    (session.missBy? operation).toList ++ (session.after operation).misses operations

def Observed (session : Session) (ref : TranslatorRef) : Bool :=
  ((session.translators[ref]?).bind Translator.observer).isSome

def told (session : Session) (ref : TranslatorRef) : List Miss :=
  session.missed.filter fun miss => miss.translator = ref

variable {session : Session}

theorem exists_question {operation : Operation} {ref : TranslatorRef} {key : Text}
    (h : operation.asks? = some (ref, key)) :
    ∃ question : Question, operation = question.operation ref key := by
  cases operation with
  | translate other otherKey args =>
    obtain ⟨rfl, rfl⟩ := Prod.mk.inj (Option.some.inj h)
    exact ⟨.text args, rfl⟩
  | translatePlural other otherKey count args =>
    obtain ⟨rfl, rfl⟩ := Prod.mk.inj (Option.some.inj h)
    exact ⟨.plural count args, rfl⟩
  | reviewText other otherKey =>
    obtain ⟨rfl, rfl⟩ := Prod.mk.inj (Option.some.inj h)
    exact ⟨.review, rfl⟩
  | _ => cases h

@[simp] theorem asks?_operation (ref : TranslatorRef) (key : Text) (question : Question) :
    (question.operation ref key).asks? = some (ref, key) := by
  cases question <;> rfl

theorem Unnoticed.action {operation : Operation} (h : operation.asks? = none) :
    Unnoticed operation.action := by
  cases operation with
  | createSimple locale texts => exact map _ (addDictionary _)
  | createForeign lookup listing => exact map _ (addDictionary _)
  | createComposite locale items texts => exact map _ (createComposite locale items texts)
  | attach composite item priority => exact map _ (attach composite item priority)
  | setText ref key text comment => exact map _ (modifyDictionary ref _)
  | updateTexts ref texts => exact map _ (modifyDictionary ref _)
  | replaceTexts ref texts => exact map _ (modifyDictionary ref _)
  | removeText ref key => exact map _ (removeText ref key)
  | createTranslator language source options =>
    exact map _ (createTranslator language source options)
  | createSystemTranslator settings source options =>
    exact map _ (createSystemTranslator settings source options)
  | setLanguage ref language => exact map _ (setLanguage ref language)
  | setChain ref source => exact map _ (setChain ref source)
  | attachToTranslator ref item priority => exact map _ (attachToTranslator ref item priority)
  | hasText ref key => exact map _ (hasText ref key)
  | translate ref key args => cases h
  | translatePlural ref key count args => cases h
  | reviewText ref key => cases h

/-- All that a question tells of misses is told while the key is looked up. -/
theorem notices_of_lookup {ref : TranslatorRef} {key : Text}
    {outcome : Except Failure (Text × Text)} {later : Session}
    (h : session.perform (lookup ref key) = (outcome, later)) (question : Question) :
    (session.after (question.operation ref key)).warnings = later.warnings ∧
      (session.after (question.operation ref key)).missed = later.missed := by
  rw [after, question.action_operation, perform_bind, h]
  cases outcome with
  | error failure => exact ⟨rfl, rfl⟩
  | ok found => exact Unnoticed.answer key found.1 found.2 question later

theorem warnings_tell (translator : Translator) (miss : Miss) :
    (session.tell translator miss).warnings = session.warnings ++ [miss.warning] := by
  have hwarning : [miss.warning].filter (fun event => event.level = .warning) =
      [miss.warning] := by simp [Miss.warning, Log.Event.level]
  rw [warnings, tell, List.filter_append, hwarning]
  rfl

/-- A question that misses nothing looks the key up without a trace. -/
theorem lookup_of_missBy?_eq_none (hidle : session.Idle) {ref : TranslatorRef} {key : Text}
    {operation : Operation} (hasks : operation.asks? = some (ref, key))
    (hmiss : session.missBy? operation = none) :
    ∃ outcome, session.perform (lookup ref key) = (outcome, session) := by
  cases hget : session.translators[ref]? with
  | none => exact ⟨.ok (key, []), by simp [lookup, hget]⟩
  | some translator =>
    cases hfound : session.library.lookup translator.chain key with
    | error circle => exact ⟨_, perform_lookup_endless hidle hget hfound⟩
    | ok found =>
      cases found with
      | some text => exact ⟨_, perform_lookup_present hidle hget hfound⟩
      | none => simp [missBy?, hasks, hget, hfound] at hmiss

/-- What is missed is a key without a text in the chain, by the translator that is asked and in
the language that it has now. -/
theorem missBy?_eq_some_iff {operation : Operation} {miss : Miss} :
    session.missBy? operation = some miss ↔
      ∃ question translator, operation = Question.operation miss.translator miss.key question ∧
        session.translators[miss.translator]? = some translator ∧
        session.library.lookup translator.chain miss.key = .ok none ∧
        translator.language = miss.language := by
  constructor
  · intro h
    obtain ⟨⟨ref, key⟩, hasks, h⟩ := Option.bind_eq_some_iff.1 h
    obtain ⟨translator, hget, h⟩ := Option.bind_eq_some_iff.1 h
    obtain ⟨question, hquestion⟩ := exists_question hasks
    split at h
    · next hmissing =>
      obtain rfl := Option.some.inj h
      exact ⟨question, translator, hquestion, hget, hmissing, rfl⟩
    · cases h
  · rintro ⟨question, translator, rfl, hget, hmissing, hlanguage⟩
    simp [missBy?, hget, hmissing, hlanguage]

/-- An operation adds what it misses to the warnings, and to what was told if the translator has
an observer. -/
theorem after_notices (hidle : session.Idle) (operation : Operation) :
    (session.after operation).warnings =
        session.warnings ++ (session.missBy? operation).toList.map Miss.warning ∧
      (session.after operation).missed = session.missed ++
        (session.missBy? operation).toList.filter fun miss => session.Observed miss.translator := by
  cases hmiss : session.missBy? operation with
  | none =>
    have hquiet : (session.after operation).warnings = session.warnings ∧
        (session.after operation).missed = session.missed := by
      cases hasks : operation.asks? with
      | none => exact Unnoticed.action hasks session
      | some asked =>
        obtain ⟨question, rfl⟩ := exists_question hasks
        obtain ⟨outcome, hlookup⟩ := lookup_of_missBy?_eq_none hidle hasks hmiss
        exact notices_of_lookup hlookup question
    simpa using hquiet
  | some miss =>
    obtain ⟨question, translator, rfl, hget, hmissing, hlanguage⟩ := missBy?_eq_some_iff.1 hmiss
    obtain ⟨hwarnings, hmissed⟩ :=
      notices_of_lookup (perform_lookup_missing hidle hget hmissing) question
    have hobserved : session.Observed miss.translator = translator.observer.isSome := by
      simp [Observed, hget]
    rw [hwarnings, hmissed, hlanguage]
    refine ⟨warnings_tell translator miss, ?_⟩
    cases hobserver : translator.observer.isSome <;> simp [tell, hobserved, hobserver]

/-- If one translator alone is asked, nothing is missed but by it. -/
theorem filter_misses {operations : List Operation} {ref : TranslatorRef}
    (hasked : ∀ operation ∈ operations, ∀ asked ∈ operation.asks?, asked.1 = ref) :
    (session.misses operations).filter (fun miss => miss.translator = ref) =
      session.misses operations := by
  induction operations generalizing session with
  | nil => rfl
  | cons operation operations ih =>
    have hrest := fun later hlater => hasked later (List.mem_cons_of_mem _ hlater)
    rw [misses, List.filter_append, ih hrest]
    congr 1
    cases hmiss : session.missBy? operation with
    | none => rfl
    | some miss =>
      obtain ⟨question, translator, rfl, -⟩ := missBy?_eq_some_iff.1 hmiss
      have hmine : miss.translator = ref :=
        hasked _ List.mem_cons_self _ (asks?_operation miss.translator miss.key question)
      simp [hmine]

/-- Nothing takes a translator's observer away. -/
theorem Changes.observed {later : Session} (h : Changes session later) {ref : TranslatorRef}
    (hobserved : session.Observed ref = true) : later.Observed ref = true := by
  have hmodify : ∀ (translators : List Translator) (other : TranslatorRef)
      (f : Translator → Translator), (∀ translator, (f translator).observer = translator.observer) →
      ((translators.modify other f)[ref]?).bind Translator.observer =
        (translators[ref]?).bind Translator.observer := by
    intro translators other f hf
    rw [List.getElem?_modify]
    split <;> cases translators[ref]? <;> simp [hf]
  induction h with
  | refl => exact hobserved
  | tail _ hchange ih =>
    unfold Observed at ih ⊢
    cases hchange with
    | noted _ htranslators => rwa [htranslators]
    | added _ _ _ htranslators => rwa [htranslators]
    | filled _ _ _ htranslators => rwa [htranslators]
    | attached _ _ _ _ _ _ _ _ _ _ htranslators => rwa [htranslators]
    | translatorAdded added _ _ _ _ htranslators =>
      obtain ⟨observer, hobserver⟩ := Option.isSome_iff_exists.1 ih
      obtain ⟨translator, hget, -⟩ := Option.bind_eq_some_iff.1 hobserver
      have hlength := (List.getElem?_eq_some_iff.1 hget).1
      rwa [htranslators, List.getElem?_append_left hlength]
    | languageSet other language _ _ htranslators =>
      rw [htranslators, hmodify]
      · exact ih
      · exact fun _ => rfl
    | chainSet other chain _ _ htranslators =>
      rw [htranslators, hmodify]
      · exact ih
      · exact fun _ => rfl

/-- The warnings of a run are its misses, and what is told of a translator is those of its own. -/
theorem Reachable.run_notices (hreachable : session.Reachable) {operations : List Operation}
    (hnames : session.NamesEach operations) :
    (session.run operations).warnings =
        session.warnings ++ (session.misses operations).map Miss.warning ∧
      ∀ ref, session.Observed ref = true →
        (session.run operations).told ref =
          session.told ref ++
            (session.misses operations).filter fun miss => miss.translator = ref := by
  induction operations generalizing session with
  | nil => simp [run, misses]
  | cons operation operations ih =>
    obtain ⟨hname, hrest⟩ := hnames
    have hidle := hreachable.sound.idle
    obtain ⟨hwarnings, hmissed⟩ := after_notices hidle operation
    obtain ⟨hwarnings', htold'⟩ := ih (hreachable.step operation hname) hrest
    refine ⟨?_, fun ref hobserved => ?_⟩
    · show ((session.after operation).run operations).warnings = _
      rw [hwarnings', hwarnings, misses, List.map_append, List.append_assoc]
    · have hlater := (after_changes hidle hname).observed hobserved
      -- Of the misses that are told at all, those of this translator are among them.
      have htold : (session.after operation).told ref = session.told ref ++
          (session.missBy? operation).toList.filter fun miss => miss.translator = ref := by
        rw [told, hmissed, List.filter_append, List.filter_filter]
        congr 1
        apply List.filter_congr
        intro miss _
        by_cases hmine : miss.translator = ref
        · simp [hmine, hobserved]
        · simp [hmine]
      show ((session.after operation).run operations).told ref = _
      rw [htold' ref hlater, htold, misses, List.filter_append, List.append_assoc]

/-- How a translator treats a key when it is asked a question about it. -/
structure Treats (session : Session) (ref : TranslatorRef) (translator : Translator) (key : Text)
    (question : Question) : Prop where
  /-- If the observer fails on the miss, its failure is that of the question. -/
  complained : session.library.lookup translator.chain key = .ok none → ∀ message,
    translator.complaint? (session.missed ++ [⟨ref, key, translator.language⟩]) = some message →
      (session.perform (question.operation ref key).action).1 = .error (.observer message)
  strict : session.library.lookup translator.chain key = .ok none →
    translator.complaint? (session.missed ++ [⟨ref, key, translator.language⟩]) = none →
      translator.silent = false →
        (session.perform (question.operation ref key).action).1 =
          .error (.fault (.missingTranslation key translator.language))
  /-- A silent translator answers from the key as it would from the key's text. -/
  silent : session.library.lookup translator.chain key = .ok none →
    translator.complaint? (session.missed ++ [⟨ref, key, translator.language⟩]) = none →
      translator.silent = true →
        session.perform (question.operation ref key).action =
          (session.tell translator ⟨ref, key, translator.language⟩).perform
            (question.answer key key translator.language)
  never_missing : translator.silent = true → ∀ other language,
    (session.perform (question.operation ref key).action).1 ≠
      .error (.fault (.missingTranslation other language))
  present : ∀ text, session.library.lookup translator.chain key = .ok (some text) →
    session.perform (question.operation ref key).action =
      session.perform (question.answer key text translator.language)

theorem treats (hidle : session.Idle) {ref : TranslatorRef} {translator : Translator}
    (hget : session.translators[ref]? = some translator) (key : Text) (question : Question) :
    session.Treats ref translator key question where
  complained hmissing message hcomplaint := by
    rw [question.action_operation, perform_bind, perform_lookup_missing hidle hget hmissing,
      hcomplaint]
  strict hmissing hcontent hstrict := by
    rw [question.action_operation, perform_bind, perform_lookup_missing hidle hget hmissing,
      hcontent, hstrict]
    rfl
  silent hmissing hcontent hsilent := by
    rw [question.action_operation, perform_bind, perform_lookup_missing hidle hget hmissing,
      hcontent, hsilent]
    rfl
  never_missing hsilent := ne_missing_of_silent hidle hget hsilent question
  present text hpresent := by
    rw [question.action_operation, perform_bind, perform_lookup_present hidle hget hpresent]

/-- The misses of a run are what its warnings tell and what the observer of a translator is told,
each once and in order; if nothing but this translator is asked, they are the same. At any moment,
a question about a missing key fails or goes on as the observer and the mode of the translator have
it, and one about a present key is answered alike by translators of the same chain and language. -/
theorem Reachable.misses_are_told (hreachable : session.Reachable) :
    (∀ operations, session.NamesEach operations →
      (session.run operations).warnings =
          session.warnings ++ (session.misses operations).map Miss.warning ∧
        ∀ ref, session.Observed ref = true →
          (session.run operations).told ref = session.told ref ++
              (session.misses operations).filter (fun miss => miss.translator = ref) ∧
            ((∀ operation ∈ operations, ∀ asked ∈ operation.asks?, asked.1 = ref) →
              (session.run operations).told ref =
                session.told ref ++ session.misses operations)) ∧
    ∀ ref translator, session.translators[ref]? = some translator → ∀ key question,
      session.Treats ref translator key question ∧
        ∀ other second text, session.translators[other]? = some second →
          second.chain = translator.chain → second.language = translator.language →
            session.library.lookup translator.chain key = .ok (some text) →
              session.perform (question.operation other key).action =
                session.perform (question.operation ref key).action := by
  have hidle := hreachable.sound.idle
  constructor
  · intro operations hnames
    obtain ⟨hwarnings, htold⟩ := hreachable.run_notices hnames
    refine ⟨hwarnings, fun ref hobserved => ⟨htold ref hobserved, fun hasked => ?_⟩⟩
    rw [htold ref hobserved, filter_misses hasked]
  · intro ref translator hget key question
    refine ⟨treats hidle hget key question, ?_⟩
    intro other second text hother hchain hlanguage hpresent
    rw [(treats hidle hget key question).present text hpresent,
      (treats hidle hother key question).present text (by rwa [hchain]), hlanguage]

def kiosk : Session :=
  ((({} : Session).after (.createComposite "en_US" [] [("save", "Save")])).after
    (.createTranslator "en_US" (.one (.dictionary 0))
      { silent := true, observer := some ⟨fun _ => none⟩ })).after
      (.createTranslator "en_US" (.one (.dictionary 0)) {})

theorem reachable_kiosk : kiosk.Reachable := by
  have hoffers : ∀ item ∈ Source.items (.one (.dictionary 0)),
      ∀ ref, item = .dictionary ref → ref < 1 := by
    intro item hitem ref href
    obtain rfl := List.mem_singleton.1 hitem
    obtain rfl : 0 = ref := Item.dictionary.inj href
    exact Nat.zero_lt_one
  refine .step _ (.step _ (.step _ .start ?_) hoffers) hoffers
  intro item hitem
  cases hitem

/-- The language changes and a text is added between the questions. -/
theorem misses_are_told_kiosk :
    (kiosk.run [.translate 0 "open" .none, .setLanguage 0 "de_DE", .reviewText 0 "close",
        .setText 0 "open" "Auf" none, .translate 0 "open" .none]).told 0 =
      [⟨0, "open", "en_US"⟩, ⟨0, "close", "de_DE"⟩] ∧
    kiosk.perform (Operation.translate 1 "save" .none).action =
      kiosk.perform (Operation.translate 0 "save" .none).action := by
  obtain ⟨hruns, hquestions⟩ := reachable_kiosk.misses_are_told
  constructor
  · obtain ⟨-, htold⟩ := hruns [.translate 0 "open" .none, .setLanguage 0 "de_DE",
      .reviewText 0 "close", .setText 0 "open" "Auf" none, .translate 0 "open" .none]
      ⟨Nat.zero_lt_two, Nat.zero_lt_two, Nat.zero_lt_two, Nat.zero_lt_one, Nat.zero_lt_two, trivial⟩
    exact (htold 0 rfl).1
  · exact (hquestions 0 _ rfl "save" (.text .none)).2 1 _ "Save" rfl rfl rfl rfl

end Phrasebook.Session
