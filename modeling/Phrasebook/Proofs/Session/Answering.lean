import Phrasebook.Proofs.Message.Resolving

/-!
A translator is asked for the text of a key, for a plural text, or for a review. In each case the
key is looked up first, and the rest depends on the text and the language that this gives. For a
key that is missing there is no text: the miss is logged, the observer is told, and unless the
observer complains a silent translator goes on with the key while a strict one fails.
-/
namespace Phrasebook

def Translator.complaint? (translator : Translator) (missed : List Miss) : Option Text :=
  translator.observer.bind fun observer => observer.complaint? missed

def Miss.warning (miss : Miss) : Log.Event := .notFound miss.key miss.language

namespace Session

inductive Question
  | text (args : Placeholder.Args)
  | plural (count : Number) (args : Placeholder.Args)
  | review

namespace Question

def operation (ref : TranslatorRef) (key : Text) : Question → Operation
  | text args => .translate ref key args
  | plural count args => .translatePlural ref key count args
  | review => .reviewText ref key

def answer (key text language : Text) : Question → Action Answer
  | .text args => do
    let result := Placeholder.substitute text (← tableFor text args [])
    emit (.resolved key result)
    return .text result
  | .plural count args => do
    let choice ← chooseText text count language
    let table ← tableFor choice args [countToken]
    let inserted ← insertedCount count
    let result := Placeholder.substitute choice (table.set countToken inserted)
    emit (.resolvedPlural key count result)
    return .text result
  | .review => do
    let report := Message.review text language
    emit (.reviewed language report.errors.length report.warnings.length)
    return .report report

/-- Whatever is asked, the key is looked up and nothing but its text and language matters. -/
theorem action_operation (question : Question) (ref : TranslatorRef) (key : Text) :
    (question.operation ref key).action =
      lookup ref key >>= fun found => question.answer key found.1 found.2 := by
  cases question with
  | text args => simp [operation, Operation.action, translate, answer]
  | plural count args => simp [operation, Operation.action, translatePlural, answer]
  | review => simp [operation, Operation.action, reviewText, answer]

end Question

/-- The session after a translator logged a miss and told its observer. -/
def tell (session : Session) (translator : Translator) (miss : Miss) : Session :=
  { session with
    log := session.log ++ [miss.warning]
    missed := if translator.observer.isSome then session.missed ++ [miss] else session.missed }

variable {session : Session} {ref : TranslatorRef} {translator : Translator} {key : Text}

/-- The observer is heard first. Only then does it matter whether the translator is silent. -/
theorem perform_lookup_missing (hidle : session.Idle)
    (hget : session.translators[ref]? = some translator)
    (hmissing : session.library.lookup translator.chain key = .ok none) :
    session.perform (lookup ref key) =
      (match translator.complaint? (session.missed ++ [⟨ref, key, translator.language⟩]) with
        | some message => .error (.observer message)
        | none => if translator.silent then .ok (key, translator.language)
            else .error (.fault (.missingTranslation key translator.language)),
        session.tell translator ⟨ref, key, translator.language⟩) := by
  have hfound : session.perform (reading ref (getText translator.chain key)) =
      (.ok none, session) := by
    rw [perform_reading hidle (LockBlind.getText _ _), perform_getText, hmissing]
    rfl
  simp only [lookup, perform_bind, perform_translator?, hget, resolve, hfound, perform_emit]
  cases hobserver : translator.observer with
  | none =>
    simp only [Translator.complaint?, tell, hobserver, Option.bind_none, Option.isSome_none]
    split <;> rfl
  | some observer =>
    simp only [Translator.complaint?, tell, hobserver, Option.bind_some, Option.isSome_some,
      perform_bind, observe, perform_get, perform_modify]
    cases observer.complaint? (session.missed ++ [⟨ref, key, translator.language⟩]) with
    | some message => rfl
    | none =>
      simp only [perform_pure]
      split <;> rfl

/-- A key whose search runs in a circle is neither there nor missing. -/
theorem perform_lookup_endless (hidle : session.Idle)
    (hget : session.translators[ref]? = some translator) {circle : Endless}
    (hendless : session.library.lookup translator.chain key = .error circle) :
    session.perform (lookup ref key) = (.error .endless, session) := by
  have hfound : session.perform (reading ref (getText translator.chain key)) =
      (.error .endless, session) := by
    rw [perform_reading hidle (LockBlind.getText _ _), perform_getText, hendless]
    rfl
  simp only [lookup, perform_bind, perform_translator?, hget, resolve, hfound]

/-- A key that is there has its text, and nothing is logged. -/
theorem perform_lookup_present (hidle : session.Idle)
    (hget : session.translators[ref]? = some translator) {text : Text}
    (hpresent : session.library.lookup translator.chain key = .ok (some text)) :
    session.perform (lookup ref key) = (.ok (text, translator.language), session) := by
  apply perform_lookup hidle hget
  rw [perform_getText, hpresent]
  rfl

/-- An action does not fail for want of a text, though it may fail for other reasons. -/
def NeverMisses {α : Type} (action : Action α) : Prop :=
  ∀ (session : Session) (key language : Text),
    (session.perform action).1 ≠ .error (.fault (.missingTranslation key language))

namespace NeverMisses

variable {α β : Type}

theorem pure (a : α) : NeverMisses (pure a : Action α) := by
  intro session key language h
  cases h

theorem emit (event : Log.Event) : NeverMisses (emit event) := by
  intro session key language h
  cases h

theorem bind_at {session : Session} {action : Action α} {next : α → Action β}
    {key language : Text}
    (haction : (session.perform action).1 ≠ .error (.fault (.missingTranslation key language)))
    (hnext : ∀ a, NeverMisses (next a)) :
    (session.perform (action >>= next)).1 ≠
      .error (.fault (.missingTranslation key language)) := by
  rw [perform_bind]
  rcases hfirst : session.perform action with ⟨failure | a, later⟩
  · rw [hfirst] at haction
    intro h
    obtain rfl := Except.error.inj h
    exact haction rfl
  · exact hnext a later key language

theorem bind {action : Action α} {next : α → Action β} (haction : NeverMisses action)
    (hnext : ∀ a, NeverMisses (next a)) : NeverMisses (action >>= next) :=
  fun session key language => bind_at (haction session key language) hnext

theorem tableFor (text : Text) (args : Placeholder.Args) (reserved : List Text) :
    NeverMisses (tableFor text args reserved) := by
  intro session key language
  unfold Session.tableFor
  split <;> intro h <;> cases h

theorem insertedCount (count : Number) : NeverMisses (insertedCount count) := by
  intro session key language
  unfold Session.insertedCount
  split <;> intro h <;> cases h

theorem chooseText (text : Text) (count : Number) (language : Text) :
    NeverMisses (chooseText text count language) := by
  unfold Session.chooseText
  split
  · split
    · exact pure _
    · exact bind (emit _) fun _ => pure _
  all_goals
    intro session key language h
    cases h

theorem answer (key text language : Text) (question : Question) :
    NeverMisses (question.answer key text language) := by
  cases question with
  | text args => exact bind (tableFor text args []) fun _ => bind (emit _) fun _ => pure _
  | plural count args =>
    exact bind (chooseText text count language) fun _ => bind (tableFor _ args _) fun _ =>
      bind (insertedCount count) fun _ => bind (emit _) fun _ => pure _
  | review => exact bind (emit _) fun _ => pure _

end NeverMisses

/-- A silent translator never fails for want of a text. -/
theorem ne_missing_of_silent (hidle : session.Idle)
    (hget : session.translators[ref]? = some translator) (hsilent : translator.silent = true)
    (question : Question) (other language : Text) :
    (session.perform (question.operation ref key).action).1 ≠
      .error (.fault (.missingTranslation other language)) := by
  rw [question.action_operation]
  refine NeverMisses.bind_at ?_ fun found => NeverMisses.answer key found.1 found.2 question
  cases hlookup : session.library.lookup translator.chain key with
  | error circle =>
    rw [perform_lookup_endless hidle hget hlookup]
    intro h
    cases h
  | ok found =>
    cases found with
    | some text =>
      rw [perform_lookup_present hidle hget hlookup]
      intro h
      cases h
    | none =>
      rw [perform_lookup_missing hidle hget hlookup, if_pos hsilent]
      cases translator.complaint? _ <;> intro h <;> cases h

end Session
end Phrasebook
