import Mathlib.Data.Fintype.EquivFin
import Phrasebook.Proofs.Session.Change

/-!
A composite refuses itself as a child, and no other dictionary. So no dictionary is among its own
children, but two composites may take one another, and then what they are asked may never end. A
call that is accepted adds one edge to the containment; it closes a circle if and only if the
composite is already asked when the new child is. Questions end where no circle is led into.
-/
namespace Phrasebook.Dictionary

def ownKeys : Dictionary → List Text
  | foreign lookup _ => lookup.keys
  | dictionary => dictionary.entries.keys

theorem mem_ownKeys_iff (dictionary : Dictionary) (key : Text) :
    key ∈ dictionary.ownKeys ↔ dictionary.own? key ≠ none := by
  cases dictionary with
  | simple locale entries => simp [ownKeys, own?, OrderedMap.mem_keys_iff]
  | composite locale entries children => simp [ownKeys, own?, OrderedMap.mem_keys_iff]
  | foreign lookup listing => exact lookup.mem_keys_iff key

end Phrasebook.Dictionary

namespace Phrasebook.Library

/-- What a containment with one more edge has beyond the one without: ways over this edge. -/
theorem contains_of_edge {library later : Library} {composite added : DictionaryRef}
    (hedge : ∀ parent child, later.Child parent child ↔
      library.Child parent child ∨ parent = composite ∧ child = added)
    {ref below : DictionaryRef} (h : later.Contains ref below) :
    library.Contains ref below ∨ library.Reaches ref composite ∧ library.Reaches added below := by
  induction h with
  | single hchild =>
    rcases (hedge _ _).1 hchild with hold | ⟨rfl, rfl⟩
    · exact Or.inl (Relation.TransGen.single hold)
    · exact Or.inr ⟨Relation.ReflTransGen.refl, Relation.ReflTransGen.refl⟩
  | tail _ hchild ih =>
    rcases (hedge _ _).1 hchild with hold | ⟨rfl, rfl⟩
    · rcases ih with hcontains | ⟨hbefore, hafter⟩
      · exact Or.inl (hcontains.tail hold)
      · exact Or.inr ⟨hbefore, hafter.tail hold⟩
    · rcases ih with hcontains | ⟨hbefore, _⟩
      · exact Or.inr ⟨hcontains.to_reflTransGen, Relation.ReflTransGen.refl⟩
      · exact Or.inr ⟨hbefore, Relation.ReflTransGen.refl⟩

/-- One more edge closes a circle if and only if there is a way back. -/
theorem acyclic_iff_of_edge {library later : Library} {composite added : DictionaryRef}
    (hedge : ∀ parent child, later.Child parent child ↔
      library.Child parent child ∨ parent = composite ∧ child = added)
    (hacyclic : library.Acyclic) : later.Acyclic ↔ ¬ library.Reaches added composite := by
  constructor
  · intro hlater hback
    have hnew : later.Child composite added := (hedge composite added).2 (Or.inr ⟨rfl, rfl⟩)
    have hkept : later.Reaches added composite :=
      Relation.ReflTransGen.mono (fun parent child hchild =>
        (hedge parent child).2 (Or.inl hchild)) _ _ hback
    exact hlater composite (Relation.TransGen.head' hnew hkept)
  · intro hback ref hcircle
    rcases contains_of_edge hedge hcircle with hold | ⟨hbefore, hafter⟩
    · exact hacyclic ref hold
    · exact hback (hafter.trans hbefore)

/-- Some key is in no dictionary. -/
theorem exists_key_nowhere (library : Library) :
    ∃ key, ∀ dictionary ∈ library.dictionaries, dictionary.own? key = none := by
  obtain ⟨key, hkey⟩ :=
    Infinite.exists_notMem_finset (library.dictionaries.flatMap Dictionary.ownKeys).toFinset
  refine ⟨key, fun dictionary hdictionary => ?_⟩
  by_contra hown
  have hmem : key ∈ dictionary.ownKeys := (dictionary.mem_ownKeys_iff key).2 hown
  exact hkey (List.mem_toFinset.2 (List.mem_flatMap.2 ⟨dictionary, hdictionary, hmem⟩))

/-- If a dictionary leads into a circle, not every key is found or missed. -/
theorem lookups_isOk_iff {library : Library} (hclosed : library.Closed) {ref : DictionaryRef}
    (href : ref < library.size) :
    (∀ key, ∃ found, library.lookup ref key = .ok found) ↔ ¬ library.LeadsInCircle ref := by
  constructor
  · intro h hcircle
    obtain ⟨key, hnowhere⟩ := library.exists_key_nowhere
    obtain ⟨found, hfound⟩ := h key
    rw [lookup, search_eq_error hcircle hnowhere] at hfound
    cases hfound
  · intro hcircle key
    exact lookup_isOk hclosed href hcircle key

end Phrasebook.Library

namespace Phrasebook.Session

/-- The calls that give a composite a child: on the composite, or on a translator that has it for
its chain. -/
inductive Attaches (session : Session) :
    Action Unit → (composite child : DictionaryRef) → (priority : Value) → Prop
  | composite {composite : DictionaryRef} (child : DictionaryRef) (priority : Value)
      (hcomposite : session.library.IsComposite composite) :
      Attaches session (attach composite (.dictionary child) priority) composite child priority
  | translator {ref : TranslatorRef} {translator : Translator} (child : DictionaryRef)
      (priority : Value) (hget : session.translators[ref]? = some translator) :
      Attaches session (attachToTranslator ref (.dictionary child) priority) translator.chain child
        priority

variable {session : Session}

theorem perform_attach_self {composite : DictionaryRef}
    (hcomposite : session.library.IsComposite composite) (priority : Value) :
    session.perform (attach composite (.dictionary composite) priority) =
      (.error .containsItself, session) := by
  obtain ⟨locale, entries, children, hget⟩ := hcomposite
  simp only [attach, perform_bind, perform_dictionary?, hget, if_true, perform_throw]

theorem perform_emitAttached (session : Session) (child : DictionaryRef)
    (priority : Value) (children : Nat) :
    ∃ later, session.perform (emitAttached child priority children) = (.ok (), later) ∧
      later.library = session.library := by
  simp only [emitAttached, perform_bind, perform_dictionary?]
  cases session.library.get? child with
  | none => exact ⟨session, rfl, rfl⟩
  | some dictionary => exact ⟨_, rfl, rfl⟩

section Taking

variable {composite child : DictionaryRef} {locale : Text} {entries : OrderedMap Entry}
  {children : List DictionaryRef} {priority : Value}

/-- Another dictionary is refused for its place only. -/
theorem perform_attach_noPlace
    (hget : session.library.get? composite = some (.composite locale entries children))
    (hne : child ≠ composite) {reason : Library.NoPlace}
    (hplace : Library.placeOf priority = .error reason) :
    session.perform (attach composite (.dictionary child) priority) =
      (.error (.noPlace reason), session) := by
  simp only [attach, perform_bind, perform_dictionary?, hget]
  rw [if_neg hne, takeChild, Library.insertChild, hplace]
  rfl

/-- Every child but itself is accepted by a composite if there is a place for it. -/
theorem perform_attach_dictionary
    (hget : session.library.get? composite = some (.composite locale entries children))
    (hne : child ≠ composite) {place : Option Int}
    (hplace : Library.placeOf priority = .ok place) :
    ∃ later, session.perform (attach composite (.dictionary child) priority) = (.ok (), later) ∧
      later.library = session.library.modify composite
        (Dictionary.withChildren (Library.insertAt children child place)) := by
  simp only [attach, perform_bind, perform_dictionary?, hget]
  rw [if_neg hne, takeChild, Library.insertChild, hplace]
  simp only [Except.map, perform_bind, perform_modifyDictionary]
  let attached : Session := { session with
    library := session.library.modify composite
      (Dictionary.withChildren (Library.insertAt children child place)) }
  exact attached.perform_emitAttached child priority
    (Library.insertAt children child place).length

end Taking

/-- The child is one edge more. -/
theorem perform_attach_other {composite child : DictionaryRef}
    (hcomposite : session.library.IsComposite composite) (hne : child ≠ composite)
    {priority : Value} {place : Option Int} (hplace : Library.placeOf priority = .ok place) :
    ∃ later, session.perform (attach composite (.dictionary child) priority) = (.ok (), later) ∧
      ∀ parent below, later.library.Child parent below ↔
        session.library.Child parent below ∨ parent = composite ∧ below = child := by
  obtain ⟨locale, entries, children, hget⟩ := hcomposite
  obtain ⟨later, hlater, hlibrary⟩ := perform_attach_dictionary hget hne hplace
  refine ⟨later, hlater, ?_⟩
  rw [hlibrary]
  exact Library.child_attach hget child place

/-- A translator hands the new child on to its chain. -/
theorem perform_attachToTranslator (hidle : session.Idle) {ref : TranslatorRef}
    {translator : Translator} (hget : session.translators[ref]? = some translator) (item : Item)
    (priority : Value) :
    session.perform (attachToTranslator ref item priority) =
      session.perform (attach translator.chain item priority) := by
  rw [attachToTranslator, perform_writing hidle (LockBlind.attachToChain ref item priority)]
  simp [chainOf, hget]

/-- Both kinds of calls come to the same call on a composite. -/
theorem Sound.perform_attaches (hsound : session.Sound) {call : Action Unit}
    {composite child : DictionaryRef} {priority : Value}
    (hcall : session.Attaches call composite child priority) :
    session.library.IsComposite composite ∧
      session.perform call = session.perform (attach composite (.dictionary child) priority) := by
  cases hcall with
  | composite _ _ hcomposite => exact ⟨hcomposite, rfl⟩
  | translator _ _ hget =>
    exact ⟨hsound.composite_chain _ (List.mem_of_getElem? hget),
      perform_attachToTranslator hsound.idle hget _ priority⟩

theorem exists_ok_mapError {ε δ α : Type} (f : ε → δ) (outcome : Except ε α) :
    (∃ a, outcome.mapError f = .ok a) ↔ ∃ a, outcome = .ok a := by
  cases outcome with
  | error e =>
    constructor
    · rintro ⟨a, ⟨⟩⟩
    · rintro ⟨a, ⟨⟩⟩
  | ok a => exact ⟨fun _ => ⟨a, rfl⟩, fun _ => ⟨a, rfl⟩⟩

theorem exists_ok_map {ε α β : Type} (f : α → β) (outcome : Except ε α) :
    (∃ b, outcome.map f = .ok b) ↔ ∃ a, outcome = .ok a := by
  cases outcome with
  | error e =>
    constructor
    · rintro ⟨b, ⟨⟩⟩
    · rintro ⟨a, ⟨⟩⟩
  | ok a => exact ⟨fun _ => ⟨a, rfl⟩, fun _ => ⟨f a, rfl⟩⟩

/-- No dictionary is ever among its own children. A call that would make it so is refused and
changes nothing, and so is a call whose priority is no place. Every other call adds one edge, even
one that closes a circle. What is asked of a dictionary ends if and only if it does not lead into a
circle. -/
theorem Reachable.ends_iff_no_circle (hreachable : session.Reachable) :
    (∀ ref, ¬ session.library.Child ref ref) ∧
    (∀ call composite child priority, session.Attaches call composite child priority →
      (child = composite → session.perform call = (.error .containsItself, session)) ∧
      (child ≠ composite → ∀ reason, Library.placeOf priority = .error reason →
        session.perform call = (.error (.noPlace reason), session)) ∧
      (child ≠ composite → ∀ place, Library.placeOf priority = .ok place →
        ∃ later, session.perform call = (.ok (), later) ∧
        (∀ parent below, later.library.Child parent below ↔
          session.library.Child parent below ∨ parent = composite ∧ below = child) ∧
        (session.library.Acyclic →
          (later.library.Acyclic ↔ ¬ session.library.Reaches child composite)))) ∧
    ∀ ref < session.library.size,
      ((∃ all, (session.perform (allTexts ref)).1 = .ok all) ↔
        ¬ session.library.LeadsInCircle ref) ∧
      ((∃ count, (session.perform (countKeys ref)).1 = .ok count) ↔
        ¬ session.library.LeadsInCircle ref) ∧
      ((∀ key, ∃ found, (session.perform (getText ref key)).1 = .ok found) ↔
        ¬ session.library.LeadsInCircle ref) ∧
      ((∀ key, ∃ present, (session.perform (containsKey ref (.text key))).1 = .ok present) ↔
        ¬ session.library.LeadsInCircle ref) := by
  have hsound := hreachable.sound
  refine ⟨hsound.not_own_child, ?_, ?_⟩
  · intro call composite child priority hcall
    obtain ⟨hcomposite, hperform⟩ := hsound.perform_attaches hcall
    rw [hperform]
    refine ⟨?_, ?_, ?_⟩
    · rintro rfl
      exact perform_attach_self hcomposite priority
    · intro hne reason hplace
      obtain ⟨locale, entries, children, hget⟩ := hcomposite
      exact perform_attach_noPlace hget hne hplace
    · intro hne place hplace
      obtain ⟨later, hlater, hedge⟩ := perform_attach_other hcomposite hne hplace
      exact ⟨later, hlater, hedge, Library.acyclic_iff_of_edge hedge⟩
  · intro ref href
    have hlisting := Library.listing_isOk_iff hsound.closed href
    have hlookup := Library.lookups_isOk_iff hsound.closed href
    refine ⟨?_, ?_, ?_, ?_⟩
    · simp only [perform_allTexts, exists_ok_mapError]
      exact hlisting
    · simp only [perform_countKeys, exists_ok_mapError, Library.count, exists_ok_map]
      exact hlisting
    · simp only [perform_getText, exists_ok_mapError]
      exact hlookup
    · simp only [perform_containsKey, exists_ok_mapError, Library.contains, exists_ok_map]
      exact hlookup

def nested : Session :=
  (({} : Session).after (.createComposite "en_US" [] [])).after
    (.createComposite "en_US" [.dictionary 0] [])

def entwined : Session := nested.after (.attach 0 (.dictionary 1) .absent)

theorem reachable_nested : nested.Reachable := by
  refine .step _ (.step _ .start ?_) ?_
  · intro item hitem
    cases hitem
  · rintro item hitem ref rfl
    obtain rfl : ref = 0 := by simpa using hitem
    decide

theorem reachable_entwined : entwined.Reachable := by
  refine .step _ reachable_nested ⟨by decide, ?_⟩
  rintro ref ⟨⟩
  decide

theorem contains_entwined : entwined.library.Contains 0 0 := by
  have hdown : entwined.library.Child 0 1 := ⟨_, rfl, List.mem_cons_self⟩
  have hup : entwined.library.Child 1 0 := ⟨_, rfl, List.mem_cons_self⟩
  exact Relation.TransGen.tail (Relation.TransGen.single hdown) hup

/-- A composite that contains itself through another one is accepted, and never answers. -/
theorem entwined_accepted_and_endless :
    entwined.Reachable ∧
      nested.perform (attach 0 (.dictionary 1) .absent) = (.ok (), entwined) ∧
      entwined.library.Contains 0 0 ∧
      (entwined.perform (getText 0 "ok")).1 = .error .endless ∧
      (entwined.perform (allTexts 0)).1 = .error .endless :=
  ⟨reachable_entwined, rfl, contains_entwined, rfl, rfl⟩

/-- The outer composite refuses itself, and any child for a place beyond 64 bits; it never ends. -/
theorem entwined_ends_iff_no_circle :
    ¬ entwined.library.Child 0 0 ∧
      entwined.perform (attach 1 (.dictionary 1) .absent) = (.error .containsItself, entwined) ∧
      entwined.perform (attach 1 (.dictionary 0) (.number (.integer Library.placeLimit))) =
        (.error (.noPlace .beyond), entwined) ∧
      ¬ ∃ all, (entwined.perform (allTexts 1)).1 = .ok all := by
  obtain ⟨hself, hcall, hends⟩ := reachable_entwined.ends_iff_no_circle
  have hcomposite : entwined.library.IsComposite 1 := ⟨_, _, _, rfl⟩
  have hcircle : entwined.library.LeadsInCircle 1 :=
    ⟨0, Relation.ReflTransGen.single ⟨_, rfl, List.mem_cons_self⟩, contains_entwined⟩
  refine ⟨hself 0, ?_, ?_, fun hall => (hends 1 (by decide)).1.1 hall hcircle⟩
  · exact (hcall _ 1 1 .absent (.composite 1 .absent hcomposite)).1 rfl
  · exact (hcall _ 1 0 _ (.composite 0 _ hcomposite)).2.1 (by decide) .beyond (by decide)

end Phrasebook.Session
