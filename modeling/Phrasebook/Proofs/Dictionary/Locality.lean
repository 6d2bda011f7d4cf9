import Phrasebook.Proofs.Dictionary.Circles
import Phrasebook.Proofs.Dictionary.DepthFirst
import Phrasebook.Proofs.Dictionary.Snapshot

/-!
How far a change to one dictionary is seen. A dictionary answers from what it reaches, so a change
is seen from where the changed dictionary is reached and nowhere else, and a change to one key is
seen under this key alone. Nothing is changed through a dictionary: the others, its children among
them, stay what they are.
-/
namespace Phrasebook

theorem Dictionary.own?_setEntry {key other : Text} (hne : other ≠ key) (dictionary : Dictionary)
    (entry : Entry) : (dictionary.setEntry key entry).own? other = dictionary.own? other := by
  cases dictionary with
  | simple locale entries =>
    simp [setEntry, withEntries, own?, Dictionary.entries, OrderedMap.get?_set, Ne.symm hne]
  | composite locale entries children =>
    simp [setEntry, withEntries, own?, Dictionary.entries, OrderedMap.get?_set, Ne.symm hne]
  | foreign lookup listing => rfl

theorem Dictionary.own?_remove {key other : Text} (hne : other ≠ key) (dictionary : Dictionary) :
    (dictionary.remove key).own? other = dictionary.own? other := by
  cases dictionary with
  | simple locale entries =>
    simp [remove, withEntries, own?, Dictionary.entries, OrderedMap.get?_erase, Ne.symm hne]
  | composite locale entries children =>
    simp [remove, withEntries, own?, Dictionary.entries, OrderedMap.get?_erase, Ne.symm hne]
  | foreign lookup listing => rfl

namespace Library

variable {library later : Library} {key : Text}

theorem firstAnswer_congr {ask other : DictionaryRef → Except Endless (Option Text)}
    {refs : List DictionaryRef} (h : ∀ ref ∈ refs, ask ref = other ref) :
    firstAnswer ask refs = firstAnswer other refs := by
  induction refs with
  | nil => rfl
  | cons ref refs ih =>
    obtain ⟨hfirst, hrest⟩ := List.forall_mem_cons.1 h
    rw [firstAnswer, firstAnswer, hfirst, ih hrest]

theorem mergeAll_congr {list other : DictionaryRef → Except Endless (OrderedMap Text)}
    {refs : List DictionaryRef} (h : ∀ ref ∈ refs, list ref = other ref)
    (merged : OrderedMap Text) : mergeAll list merged refs = mergeAll other merged refs := by
  induction refs generalizing merged with
  | nil => rfl
  | cons ref refs ih =>
    obtain ⟨hfirst, hrest⟩ := List.forall_mem_cons.1 h
    simp only [mergeAll, hfirst, ih hrest]

/-- All that a search for a key sees of a dictionary. -/
def seenUnder (library : Library) (key : Text) (ref : DictionaryRef) :
    Option (Option Text × List DictionaryRef) :=
  (library.get? ref).map fun dictionary => (dictionary.own? key, dictionary.children)

theorem search_congr {ref : DictionaryRef}
    (h : ∀ below, library.Reaches ref below →
      later.seenUnder key below = library.seenUnder key below) (steps : Nat) :
    later.search key steps ref = library.search key steps ref := by
  induction steps generalizing ref with
  | zero => rfl
  | succ steps ih =>
    have hhere := h ref Relation.ReflTransGen.refl
    cases hget : library.get? ref with
    | none =>
      have hlater : later.get? ref = none := by simpa [seenUnder, hget] using hhere
      simp only [search, hget, hlater]
    | some dictionary =>
      obtain ⟨changed, hlater, hown, hchildren⟩ : ∃ changed, later.get? ref = some changed ∧
          changed.own? key = dictionary.own? key ∧ changed.children = dictionary.children := by
        simpa [seenUnder, hget] using hhere
      have hbelow : ∀ child ∈ dictionary.children,
          later.search key steps child = library.search key steps child := by
        intro child hchild
        apply ih
        intro below hdown
        exact h below (Relation.ReflTransGen.head ⟨dictionary, hget, hchild⟩ hdown)
      simp only [search, hget, hlater, hown, hchildren, firstAnswer_congr hbelow]

theorem collect_congr {ref : DictionaryRef}
    (h : ∀ below, library.Reaches ref below → later.get? below = library.get? below)
    (steps : Nat) : later.collect steps ref = library.collect steps ref := by
  induction steps generalizing ref with
  | zero => rfl
  | succ steps ih =>
    have hhere := h ref Relation.ReflTransGen.refl
    cases hget : library.get? ref with
    | none => simp only [collect, hhere, hget]
    | some dictionary =>
      have hbelow : ∀ child ∈ dictionary.children,
          later.collect steps child = library.collect steps child := by
        intro child hchild
        apply ih
        intro below hdown
        exact h below (Relation.ReflTransGen.head ⟨dictionary, hget, hchild⟩ hdown)
      simp only [collect, hhere, hget, mergeAll_congr hbelow]

theorem modify_id (library : Library) (ref : DictionaryRef) : library.modify ref id = library := by
  simp [modify]

theorem seenUnder_modify {f : Dictionary → Dictionary}
    (hown : ∀ dictionary, (f dictionary).own? key = dictionary.own? key)
    (hchildren : ∀ dictionary, (f dictionary).children = dictionary.children)
    (changed ref : DictionaryRef) :
    (library.modify changed f).seenUnder key ref = library.seenUnder key ref := by
  rw [seenUnder, get?_modify]
  split
  · simp [seenUnder, Function.comp_def, hown, hchildren]
  · rfl

end Library

namespace Session

/-- The dictionary that an operation fills, empties or gives a child. -/
def target? (session : Session) : Operation → Option DictionaryRef
  | .setText ref .. | .updateTexts ref _ | .replaceTexts ref _ | .removeText ref _ => some ref
  | .attach composite .. => some composite
  | .attachToTranslator ref .. => (session.translators[ref]?).map Translator.chain
  | _ => none

variable {session later : Session}

theorem perform_attach_library (session : Session) (composite : DictionaryRef) (item : Item)
    (priority : Value) :
    ∃ f, (session.perform (attach composite item priority)).2.library =
      session.library.modify composite f := by
  have hnothing : ∃ f, session.library = session.library.modify composite f :=
    ⟨id, (session.library.modify_id composite).symm⟩
  simp only [attach, perform_bind, perform_dictionary?]
  split
  · next locale entries children child _ =>
    split
    · exact hnothing
    · unfold takeChild
      cases Library.insertChild children child priority with
      | error reason => exact hnothing
      | ok inserted =>
        refine ⟨Dictionary.withChildren inserted, ?_⟩
        simp only [emitAttached, perform_bind, perform_modifyDictionary, perform_dictionary?]
        split <;> rfl
  · exact hnothing
  · exact hnothing

/-- Whether it succeeds or not, an operation on a dictionary does nothing to the others. -/
theorem exists_library_after (hidle : session.Idle) {operation : Operation}
    {changed : DictionaryRef} (htarget : session.target? operation = some changed) :
    ∃ f, (session.after operation).library = session.library.modify changed f := by
  unfold after
  cases operation <;> simp only [Operation.action, perform_map]
  case setText | updateTexts | replaceTexts | removeText =>
    obtain rfl := Option.some.inj htarget
    exact ⟨_, rfl⟩
  case attach composite item priority =>
    obtain rfl := Option.some.inj htarget
    exact session.perform_attach_library _ item priority
  case attachToTranslator ref item priority =>
    obtain ⟨translator, hget, rfl⟩ := Option.map_eq_some_iff.1 htarget
    rw [perform_attachToTranslator hidle hget]
    exact session.perform_attach_library _ item priority
  all_goals cases htarget

/-- An answer depends on what the search sees of the dictionaries below, for this key alone. -/
theorem perform_getText_congr (hsize : later.library.size = session.library.size)
    {ref : DictionaryRef} {key : Text}
    (h : ∀ below, session.library.Reaches ref below →
      later.library.seenUnder key below = session.library.seenUnder key below) :
    (later.perform (getText ref key)).1 = (session.perform (getText ref key)).1 := by
  rw [perform_getText, perform_getText, Library.lookup, Library.lookup, hsize,
    Library.search_congr h]

/-- A listing depends on the dictionaries below. -/
theorem perform_allTexts_congr (hsize : later.library.size = session.library.size)
    {ref : DictionaryRef}
    (h : ∀ below, session.library.Reaches ref below →
      later.library.get? below = session.library.get? below) :
    (later.perform (allTexts ref)).1 = (session.perform (allTexts ref)).1 := by
  rw [perform_allTexts, perform_allTexts, Library.listing, Library.listing, hsize,
    Library.collect_congr h]

theorem perform_childrenOf_congr {ref : DictionaryRef}
    (h : later.library.get? ref = session.library.get? ref) :
    (later.perform (childrenOf ref)).1 = (session.perform (childrenOf ref)).1 := by
  simp only [childrenOf, perform_bind, perform_dictionary?, h]
  split
  · rfl
  · simp [refuse, h]

/-- Setting or removing a key is seen under this key alone. Whatever is done to a dictionary is not
seen where it is not reached, and changes no other dictionary. Everywhere and at any moment where
no circle is led into, the text of a key is that of the first dictionary, in depth-first order,
which itself has the key. -/
theorem Reachable.changes_are_local (hreachable : session.Reachable) :
    (∀ changed key ref other, other ≠ key →
      (∀ text comment,
        ((session.after (.setText changed key text comment)).perform (getText ref other)).1 =
          (session.perform (getText ref other)).1) ∧
      ((session.after (.removeText changed key)).perform (getText ref other)).1 =
        (session.perform (getText ref other)).1) ∧
    (∀ operation changed, session.target? operation = some changed →
      (∀ other ≠ changed,
        (session.after operation).library.get? other = session.library.get? other) ∧
      ∀ ref, ¬ session.library.Reaches ref changed →
        (∀ key, ((session.after operation).perform (getText ref key)).1 =
          (session.perform (getText ref key)).1) ∧
        ((session.after operation).perform (allTexts ref)).1 =
          (session.perform (allTexts ref)).1 ∧
        ((session.after operation).perform (childrenOf ref)).1 =
          (session.perform (childrenOf ref)).1) ∧
    ∀ ref < session.library.size, ¬ session.library.LeadsInCircle ref →
      (∃ order, session.library.Visits [ref] order) ∧
      ∀ order, session.library.Visits [ref] order →
        (∀ below, below ∈ order ↔ session.library.Reaches ref below) ∧
        ∀ key, (session.perform (getText ref key)).1 =
          .ok (order.findSome? (session.library.ownText? key)) := by
  have hsound := hreachable.sound
  refine ⟨?_, ?_, ?_⟩
  · intro changed key ref other hne
    have hsize : ∀ f, (session.library.modify changed f).size = session.library.size :=
      Library.size_modify session.library changed
    constructor
    · intro text comment
      refine perform_getText_congr (hsize _) fun below _ => ?_
      exact Library.seenUnder_modify (fun dictionary => dictionary.own?_setEntry hne _)
        (fun dictionary => dictionary.children_withEntries _) changed below
    · refine perform_getText_congr (hsize _) fun below _ => ?_
      exact Library.seenUnder_modify (fun dictionary => dictionary.own?_remove hne)
        (fun dictionary => dictionary.children_withEntries _) changed below
  · intro operation changed htarget
    obtain ⟨f, hlibrary⟩ := exists_library_after hsound.idle htarget
    have hothers : ∀ other ≠ changed,
        (session.after operation).library.get? other = session.library.get? other := by
      intro other hne
      rw [hlibrary, Library.get?_modify, if_neg (Ne.symm hne)]
    have hsize : (session.after operation).library.size = session.library.size := by
      rw [hlibrary, Library.size_modify]
    refine ⟨hothers, fun ref hapart => ?_⟩
    have hbelow : ∀ below, session.library.Reaches ref below →
        (session.after operation).library.get? below = session.library.get? below := by
      intro below hdown
      apply hothers
      rintro rfl
      exact hapart hdown
    refine ⟨fun key => ?_, perform_allTexts_congr hsize hbelow,
      perform_childrenOf_congr (hbelow ref Relation.ReflTransGen.refl)⟩
    refine perform_getText_congr hsize fun below hdown => ?_
    rw [Library.seenUnder, hbelow below hdown, Library.seenUnder]
  · intro ref href hcircle
    refine ⟨Library.Visits.exists_of_no_circle hsound.closed href hcircle, ?_⟩
    intro order horder
    constructor
    · intro below
      simpa using horder.mem_iff below
    · intro key
      rw [perform_getText, horder.lookup_eq hsound.closed href hcircle]
      rfl

theorem visits_sharing : sharing.library.Visits [2] [2, 1, 0, 0] :=
  .next rfl (.next rfl (.next rfl (.next rfl .done)))

/-- The child that is shared does not see what is set in a composite above it, and the outer
composite finds first what the inner one hides. -/
theorem changes_are_local_sharing :
    ((sharing.after (.setText 1 "ok" "Fine" none)).perform (getText 2 "no")).1 =
      (sharing.perform (getText 2 "no")).1 ∧
    (sharing.after (.attach 1 (.dictionary 2) .absent)).library.get? 0 = sharing.library.get? 0 ∧
    ((sharing.after (.attach 1 (.dictionary 2) .absent)).perform (allTexts 0)).1 =
      (sharing.perform (allTexts 0)).1 ∧
    (sharing.perform (getText 2 "ok")).1 =
      .ok ([2, 1, 0, 0].findSome? (sharing.library.ownText? "ok")) := by
  obtain ⟨hkeys, hdictionaries, horders⟩ := reachable_sharing.changes_are_local
  have hapart : ¬ sharing.library.Reaches 0 1 := by
    intro hdown
    rcases Relation.ReflTransGen.cases_head hdown with heq | ⟨child, ⟨dictionary, hget, hmem⟩, -⟩
    · exact absurd heq (by decide)
    · cases hget
      cases hmem
  obtain ⟨hothers, hunseen⟩ := hdictionaries (.attach 1 (.dictionary 2) .absent) 1 rfl
  obtain ⟨-, hfirst⟩ := horders 2 (by decide) (acyclic_sharing.not_leadsInCircle 2)
  exact ⟨(hkeys 1 "ok" 2 "no" (by decide)).1 "Fine" none, hothers 0 (by decide),
    (hunseen 0 hapart).2.1, (hfirst _ visits_sharing).2 "ok"⟩

end Session
end Phrasebook
