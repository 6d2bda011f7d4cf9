import Phrasebook.Proofs.Dictionary.Asking
import Phrasebook.Proofs.Dictionary.Locality

/-!
A child that a composite takes at some place is asked after the children before it and before the
others. For a key the composite then answers as it did, unless everything before the new child is
silent and the child itself is not. That holds even where the children lead in a circle: what a
composite hears from its first children it hears without being asked itself, or it never hears.
-/
namespace Phrasebook.Library

/-- The index of a new child: the place, counted from the end if it is negative, or the next index
in the list. Without a place it is the end. -/
def slot (length : Nat) : Option Int → Nat
  | none => length
  | some place => (max 0 (min (length : Int) (if place < 0 then length + place else place))).toNat

theorem slot_some (length : Nat) (place : Int) :
    slot length (some place) = position length place := by
  unfold slot position
  dsimp only
  split <;> omega

theorem ne_of_not_reaches {library : Library} {composite child : DictionaryRef}
    (h : ¬ library.Reaches child composite) : child ≠ composite := by
  rintro rfl
  exact h Relation.ReflTransGen.refl

theorem slot_le (length : Nat) (place : Option Int) : slot length place ≤ length := by
  cases place with
  | none => exact Nat.le_refl length
  | some place =>
    rw [slot_some]
    exact position_le length place

theorem insertAt_eq_append (children : List DictionaryRef) (child : DictionaryRef)
    (place : Option Int) :
    insertAt children child place =
      children.take (slot children.length place) ++
        child :: children.drop (slot children.length place) := by
  cases place with
  | none => simp [insertAt, slot]
  | some index => rw [slot_some, insertAt]

section Turn

variable {ask : DictionaryRef → Except Endless (Option Text)} {refs : List DictionaryRef}

theorem firstAnswer_eq_none_iff :
    firstAnswer ask refs = .ok none ↔ ∀ ref ∈ refs, ask ref = .ok none := by
  induction refs with
  | nil => simp [firstAnswer]
  | cons ref refs ih =>
    rw [List.forall_mem_cons, firstAnswer]
    split
    · next e he => simp [he]
    · next text htext => simp [htext]
    · next hnone => simp [hnone, ih]

theorem firstAnswer_append_of_ne (h : firstAnswer ask refs ≠ .ok none)
    (others : List DictionaryRef) : firstAnswer ask (refs ++ others) = firstAnswer ask refs := by
  rw [firstAnswer_append]
  split
  · next hnone => exact absurd hnone h
  · rfl

theorem firstAnswer_cons_of_silent {ref : DictionaryRef} (h : ask ref = .ok none) :
    firstAnswer ask (ref :: refs) = firstAnswer ask refs := by
  rw [firstAnswer, h]

theorem firstAnswer_cons_of_ne {ref : DictionaryRef} (h : ask ref ≠ .ok none) :
    firstAnswer ask (ref :: refs) = ask ref := by
  rw [firstAnswer]
  split
  · next e he => exact he.symm
  · next text htext => exact htext.symm
  · next hnone => exact absurd hnone h

/-- One that is silent makes no difference. -/
theorem firstAnswer_insert_of_silent {ref : DictionaryRef} (h : ask ref = .ok none)
    (others : List DictionaryRef) :
    firstAnswer ask (refs ++ ref :: others) = firstAnswer ask (refs ++ others) := by
  rw [firstAnswer_append, firstAnswer_append, firstAnswer_cons_of_silent h]

end Turn

section Hearing

variable {library later : Library} {key : Text} {ref : DictionaryRef}

/-- Searches that end before a search from a dictionary would do not see it. -/
theorem search_of_unseen (hothers : ∀ other ≠ ref, later.get? other = library.get? other)
    {steps : Nat} (hendless : library.search key steps ref = .error ⟨⟩) {other : DictionaryRef}
    {answer : Option Text} (h : library.search key steps other = .ok answer) :
    later.search key steps other = .ok answer := by
  induction steps generalizing other answer with
  | zero => cases h
  | succ steps ih =>
    have hshort : library.search key steps ref = .error ⟨⟩ := by
      cases hsearch : library.search key steps ref with
      | error e => rfl
      | ok found =>
        rw [search_mono (Nat.le_succ steps) hsearch] at hendless
        cases hendless
    have hne : other ≠ ref := by
      rintro rfl
      rw [hendless] at h
      cases h
    simp only [search, hothers other hne] at h ⊢
    split at h
    · exact h
    · split at h
      · exact h
      · exact firstAnswer_mono (fun _ _ => ih hshort) h

/-- If the first children of a composite have answered, they have done so before the composite has:
no step of theirs went through it. -/
theorem exists_unseen {dictionary : Dictionary} (hget : library.get? ref = some dictionary)
    (hown : dictionary.own? key = none) {refs others : List DictionaryRef}
    (hchildren : dictionary.children = refs ++ others) {steps : Nat} {answer : Option Text}
    (h : firstAnswer (library.search key steps) refs = .ok answer) :
    ∃ fewer, library.search key fewer ref = .error ⟨⟩ ∧
      firstAnswer (library.search key fewer) refs = .ok answer := by
  induction steps with
  | zero => exact ⟨0, rfl, h⟩
  | succ steps ih =>
    cases hsearch : library.search key (steps + 1) ref with
    | error e => exact ⟨steps + 1, hsearch, h⟩
    | ok found =>
      simp only [search, hget, hown, hchildren, firstAnswer_append] at hsearch
      cases hfirst : firstAnswer (library.search key steps) refs with
      | error e => simp [hfirst] at hsearch
      | ok earlier =>
        have hsame := firstAnswer_mono (fun _ _ => search_mono (Nat.le_succ steps)) hfirst
        rw [h] at hsame
        cases hsame
        exact ih hfirst

/-- What a composite hears from its first children does not depend on what children it has. -/
theorem firstAnswer_of_unseen (hclosed : later.Closed)
    (hothers : ∀ other ≠ ref, later.get? other = library.get? other)
    {dictionary changed : Dictionary} (hget : library.get? ref = some dictionary)
    (hlater : later.get? ref = some changed) (hown : dictionary.own? key = none)
    {refs others : List DictionaryRef} (hchildren : dictionary.children = refs ++ others)
    {answer : Option Text} (h : firstAnswer (library.lookup · key) refs = .ok answer) :
    firstAnswer (later.lookup · key) refs = .ok answer := by
  obtain ⟨steps, hendless, hfirst⟩ := exists_unseen hget hown hchildren h
  have hsize : 0 < later.size := Nat.zero_lt_of_lt (lt_size_of_get? hlater)
  refine firstAnswer_mono (fun other found hfound => ?_) hfirst
  exact (lookup_eq_ok_iff hclosed hsize).2 ⟨steps, search_of_unseen hothers hendless hfound⟩

end Hearing

/-- A composite has got a child between others, which does not lead back to it. Nothing else has
changed. -/
structure Attached (library later : Library) (composite child : DictionaryRef) (locale : Text)
    (entries : OrderedMap Entry) (before after : List DictionaryRef) : Prop where
  get : library.get? composite = some (.composite locale entries (before ++ after))
  get_later : later.get? composite = some (.composite locale entries (before ++ child :: after))
  others : ∀ other ≠ composite, later.get? other = library.get? other
  size_eq : later.size = library.size
  closed : library.Closed
  closed_later : later.Closed
  apart : ¬ library.Reaches child composite

namespace Attached

variable {library later : Library} {composite child : DictionaryRef} {locale : Text}
  {entries : OrderedMap Entry} {before after : List DictionaryRef} {key : Text}

/-- The new child answers as ever. -/
theorem lookup_child (h : Attached library later composite child locale entries before after)
    (key : Text) : later.lookup child key = library.lookup child key := by
  rw [lookup, lookup, h.size_eq]
  refine search_congr (fun below hdown => ?_) _
  have hne : below ≠ composite := by
    rintro rfl
    exact h.apart hdown
  rw [seenUnder, h.others below hne, seenUnder]

theorem lookup_own {text : Text}
    (h : Attached library later composite child locale entries before after)
    (hown : (Dictionary.composite locale entries (before ++ after)).own? key = some text) :
    later.lookup composite key = library.lookup composite key := by
  have hlater : (Dictionary.composite locale entries (before ++ child :: after)).own? key =
      some text := hown
  rw [lookup_eq h.closed_later h.get_later, hlater, lookup_eq h.closed h.get, hown]

section Turn

variable (h : Attached library later composite child locale entries before after)
  (hown : (Dictionary.composite locale entries (before ++ after)).own? key = none)

include h hown

theorem lookup_turn :
    library.lookup composite key = firstAnswer (library.lookup · key) (before ++ after) ∧
      later.lookup composite key = firstAnswer (later.lookup · key) (before ++ child :: after) := by
  have hlater : (Dictionary.composite locale entries (before ++ child :: after)).own? key = none :=
    hown
  constructor
  · rw [lookup_eq h.closed h.get, hown]
    rfl
  · rw [lookup_eq h.closed_later h.get_later, hlater]
    rfl

/-- What was heard from some first children of the composite still is. -/
theorem heard {refs others : List DictionaryRef} (hrefs : before ++ after = refs ++ others)
    {answer : Option Text} (hanswer : firstAnswer (library.lookup · key) refs = .ok answer) :
    firstAnswer (later.lookup · key) refs = .ok answer :=
  firstAnswer_of_unseen h.closed_later h.others h.get h.get_later hown hrefs hanswer

/-- What is heard from some first children now was heard before. -/
theorem heard_before {refs others : List DictionaryRef}
    (hrefs : before ++ child :: after = refs ++ others) {answer : Option Text}
    (hanswer : firstAnswer (later.lookup · key) refs = .ok answer) :
    firstAnswer (library.lookup · key) refs = .ok answer :=
  firstAnswer_of_unseen h.closed (fun other hne => (h.others other hne).symm) h.get_later h.get
    hown hrefs hanswer

theorem firstAnswer_before :
    firstAnswer (later.lookup · key) before = firstAnswer (library.lookup · key) before :=
  eq_of_ok_iff fun _ => ⟨h.heard_before hown rfl, h.heard hown rfl⟩

theorem lookup_of_heard (hheard : firstAnswer (library.lookup · key) before ≠ .ok none) :
    later.lookup composite key = library.lookup composite key := by
  obtain ⟨hold, hnew⟩ := h.lookup_turn hown
  have hlater : firstAnswer (later.lookup · key) before ≠ .ok none := by
    rwa [h.firstAnswer_before hown]
  rw [hold, hnew, firstAnswer_append_of_ne hlater, firstAnswer_append_of_ne hheard,
    h.firstAnswer_before hown]

theorem lookup_of_silent (hchild : library.lookup child key = .ok none) :
    later.lookup composite key = library.lookup composite key := by
  obtain ⟨hold, hnew⟩ := h.lookup_turn hown
  have hlater : later.lookup child key = .ok none := by rw [h.lookup_child, hchild]
  rw [hold, hnew]
  have hskip : firstAnswer (library.lookup · key) (before ++ child :: after) =
      firstAnswer (library.lookup · key) (before ++ after) := firstAnswer_insert_of_silent hchild _
  have hskipLater : firstAnswer (later.lookup · key) (before ++ child :: after) =
      firstAnswer (later.lookup · key) (before ++ after) := firstAnswer_insert_of_silent hlater _
  refine eq_of_ok_iff fun answer => ⟨fun hanswer => ?_, fun hanswer => ?_⟩
  · rw [← hskip]
    exact h.heard_before hown (List.append_nil _).symm hanswer
  · rw [hskipLater]
    exact h.heard hown (List.append_nil _).symm hanswer

theorem lookup_of_unheard (hbefore : firstAnswer (library.lookup · key) before = .ok none)
    (hchild : library.lookup child key ≠ .ok none) :
    later.lookup composite key = library.lookup child key := by
  have hlater : later.lookup child key ≠ .ok none := by rwa [h.lookup_child]
  rw [(h.lookup_turn hown).2, firstAnswer_append, h.firstAnswer_before hown, hbefore]
  exact (firstAnswer_cons_of_ne hlater).trans (h.lookup_child key)

end Turn

/-- At the end the new child is asked only if nothing else has an answer. -/
theorem lookup_of_last (h : Attached library later composite child locale entries before [])
    (hspeaks : library.lookup composite key ≠ .ok none) :
    later.lookup composite key = library.lookup composite key := by
  cases hown : (Dictionary.composite locale entries (before ++ [])).own? key with
  | some text => exact h.lookup_own hown
  | none =>
    apply h.lookup_of_heard hown
    rwa [(h.lookup_turn hown).1, List.append_nil] at hspeaks

end Attached
end Phrasebook.Library

namespace Phrasebook.Session

variable {session later : Session}

def Silent (session : Session) (key : Text) (ref : DictionaryRef) : Prop :=
  (session.perform (getText ref key)).1 = .ok none

theorem silent_iff {key : Text} {ref : DictionaryRef} :
    session.Silent key ref ↔ session.library.lookup ref key = .ok none := by
  rw [Silent, perform_getText]
  cases session.library.lookup ref key with
  | error e => simp [Except.mapError]
  | ok found => simp [Except.mapError]

theorem firstAnswer_eq_none_iff_silent {key : Text} {refs : List DictionaryRef} :
    Library.firstAnswer (session.library.lookup · key) refs = .ok none ↔
      ∀ ref ∈ refs, session.Silent key ref := by
  simp only [Library.firstAnswer_eq_none_iff, silent_iff]

theorem perform_getText_eq_of_lookup {key : Text} {ref other : DictionaryRef}
    (h : later.library.lookup ref key = session.library.lookup other key) :
    (later.perform (getText ref key)).1 = (session.perform (getText other key)).1 := by
  rw [perform_getText, perform_getText, h]

/-- A composite that takes a child has it among its children, at the index that its place means. -/
theorem Sound.exists_attached (hsound : session.Sound) {composite child : DictionaryRef}
    {locale : Text} {entries : OrderedMap Entry} {children : List DictionaryRef}
    (hget : session.library.get? composite = some (.composite locale entries children))
    (hchild : child < session.library.size) (hapart : ¬ session.library.Reaches child composite)
    {priority : Value} {place : Option Int} (hplace : Library.placeOf priority = .ok place) :
    ∃ later, session.perform (attach composite (.dictionary child) priority) = (.ok (), later) ∧
      Library.Attached session.library later.library composite child locale entries
        (children.take (Library.slot children.length place))
        (children.drop (Library.slot children.length place)) := by
  obtain ⟨later, hlater, hlibrary⟩ :=
    perform_attach_dictionary hget (Library.ne_of_not_reaches hapart) hplace
  refine ⟨later, hlater, ?_, ?_, ?_, ?_, hsound.closed, ?_, hapart⟩
  · rw [List.take_append_drop, hget]
  · rw [hlibrary, Library.get?_modify, if_pos rfl, hget, ← Library.insertAt_eq_append]
    rfl
  · intro other hother
    rw [hlibrary, Library.get?_modify, if_neg hother.symm]
  · rw [hlibrary, Library.size_modify]
  · rw [hlibrary]
    exact hsound.closed.attach hget hchild place

section Asked

variable {composite child : DictionaryRef} {locale : Text} {entries : OrderedMap Entry}
  {before after : List DictionaryRef} {key : Text}

/-- Where the new child is not asked, or asked in vain, nothing changes. -/
theorem perform_getText_of_held
    (h : Library.Attached session.library later.library composite child locale entries before after)
    (hheld : entries.get? key ≠ none ∨ (∃ ref ∈ before, ¬ session.Silent key ref) ∨
      session.Silent key child) :
    (later.perform (getText composite key)).1 = (session.perform (getText composite key)).1 := by
  apply perform_getText_eq_of_lookup
  have hown : (Dictionary.composite locale entries (before ++ after)).own? key =
      (entries.get? key).map Entry.text := rfl
  cases hentry : entries.get? key with
  | some entry =>
    rw [hentry] at hown
    exact h.lookup_own hown
  | none =>
    rw [hentry] at hown
    rcases hheld with hholds | ⟨ref, hmem, hspeaks⟩ | hsilent
    · exact absurd hentry hholds
    · refine h.lookup_of_heard hown fun hnone => ?_
      exact hspeaks (firstAnswer_eq_none_iff_silent.1 hnone ref hmem)
    · exact h.lookup_of_silent hown (silent_iff.1 hsilent)

/-- Where the new child is the first that has a text, this text is the answer. -/
theorem perform_getText_of_unheld
    (h : Library.Attached session.library later.library composite child locale entries before after)
    (hentry : entries.get? key = none) (hbefore : ∀ ref ∈ before, session.Silent key ref)
    (hspeaks : ¬ session.Silent key child) :
    (later.perform (getText composite key)).1 = (session.perform (getText child key)).1 := by
  have hown : (Dictionary.composite locale entries (before ++ after)).own? key = none :=
    congrArg (Option.map Entry.text) hentry
  apply perform_getText_eq_of_lookup
  exact h.lookup_of_unheard hown (firstAnswer_eq_none_iff_silent.2 hbefore)
    (mt silent_iff.2 hspeaks)

end Asked

/-- A composite takes a child that does not lead back to it at any place, be it called itself or
through a translator; for want of a place nothing is changed. The other children stay in their
order. Under a key that the composite itself has, or one of the children before the new one, nothing
changes; under others the new child is heard, if it has a text. So a child at the end overrides
nothing, and one at the start all but the composite's own entries. -/
theorem Reachable.attach_inserts (hreachable : session.Reachable) {composite child : DictionaryRef}
    {locale : Text} {entries : OrderedMap Entry} {children : List DictionaryRef}
    (hget : session.library.get? composite = some (.composite locale entries children))
    (hchild : child < session.library.size) (hapart : ¬ session.library.Reaches child composite)
    (priority : Value) :
    (∀ reason, Library.placeOf priority = .error reason →
      session.perform (attach composite (.dictionary child) priority) =
        (.error (.noPlace reason), session) ∧
      ∀ ref translator, session.translators[ref]? = some translator →
        translator.chain = composite →
        session.perform (attachToTranslator ref (.dictionary child) priority) =
          (.error (.noPlace reason), session)) ∧
    ∀ place, Library.placeOf priority = .ok place →
    ∃ later index, index = Library.slot children.length place ∧ index ≤ children.length ∧
      session.perform (attach composite (.dictionary child) priority) = (.ok (), later) ∧
      (∀ ref translator, session.translators[ref]? = some translator →
        translator.chain = composite →
        session.perform (attachToTranslator ref (.dictionary child) priority) = (.ok (), later)) ∧
      (later.perform (childrenOf composite)).1 =
        .ok (children.take index ++ child :: children.drop index) ∧
      ∀ key,
        (later.perform (getText child key)).1 = (session.perform (getText child key)).1 ∧
        (entries.get? key ≠ none ∨ (∃ ref ∈ children.take index, ¬ session.Silent key ref) ∨
            session.Silent key child →
          (later.perform (getText composite key)).1 =
            (session.perform (getText composite key)).1) ∧
        (entries.get? key = none → (∀ ref ∈ children.take index, session.Silent key ref) →
          ¬ session.Silent key child →
          (later.perform (getText composite key)).1 = (session.perform (getText child key)).1) ∧
        (place = none → ¬ session.Silent key composite →
          (later.perform (getText composite key)).1 =
            (session.perform (getText composite key)).1) ∧
        (place = some 0 → entries.get? key = none → ¬ session.Silent key child →
          (later.perform (getText composite key)).1 = (session.perform (getText child key)).1) := by
  have hsound := hreachable.sound
  have hthrough : ∀ outcome, session.perform (attach composite (.dictionary child) priority) =
      outcome → ∀ ref translator, session.translators[ref]? = some translator →
        translator.chain = composite →
        session.perform (attachToTranslator ref (.dictionary child) priority) = outcome := by
    rintro outcome houtcome ref translator htranslator rfl
    rw [perform_attachToTranslator hsound.idle htranslator, houtcome]
  constructor
  · intro reason hplace
    have hrefused := perform_attach_noPlace hget (Library.ne_of_not_reaches hapart) hplace
    exact ⟨hrefused, hthrough _ hrefused⟩
  intro place hplace
  obtain ⟨later, hlater, hattached⟩ := hsound.exists_attached hget hchild hapart hplace
  obtain ⟨index, hindex⟩ : ∃ index, index = Library.slot children.length place := ⟨_, rfl⟩
  have hle : index ≤ children.length := hindex ▸ Library.slot_le children.length place
  rw [← hindex] at hattached
  refine ⟨later, index, hindex, hle, hlater, hthrough _ hlater, ?_, fun key => ?_⟩
  · simp only [childrenOf, perform_bind, perform_dictionary?, hattached.get_later, perform_pure]
  refine ⟨perform_getText_eq_of_lookup (hattached.lookup_child key),
    perform_getText_of_held hattached, perform_getText_of_unheld hattached, ?_, ?_⟩
  · rintro rfl hspeaks
    obtain rfl : index = children.length := hindex
    rw [List.drop_length] at hattached
    exact perform_getText_eq_of_lookup (hattached.lookup_of_last (mt silent_iff.2 hspeaks))
  · rintro rfl hentry hspeaks
    obtain rfl : index = 0 := by simpa [Library.slot] using hindex
    have hnobody : ∀ ref ∈ children.take 0, session.Silent key ref :=
      fun ref hmem => absurd hmem List.not_mem_nil
    exact perform_getText_of_unheld hattached hentry hnobody hspeaks

def beside : Session :=
  ((({} : Session).after (.createSimple "en_US" [("ok", "OK"), ("no", "No")])).after
    (.createSimple "en_US" [("ok", "Sure"), ("no", "Nope")])).after
      (.createComposite "en_US" [.dictionary 0] [("no", "Never")])

theorem reachable_beside : beside.Reachable := by
  refine .step _ (.step _ (.step _ .start trivial) trivial) ?_
  rintro item hitem ref rfl
  obtain rfl : ref = 0 := by simpa using hitem
  decide

theorem apart_beside : ¬ beside.library.Reaches 1 2 := by
  intro hdown
  rcases Relation.ReflTransGen.cases_head hdown with heq | ⟨child, ⟨dictionary, hget, hmem⟩, -⟩
  · exact absurd heq (by decide)
  · cases hget
    cases hmem

theorem get?_beside : beside.library.get? 2 =
    some (.composite "en_US" (.ofList (Dictionary.plainEntries [("no", "Never")])) [0]) := rfl

/-- A place far before the start is the start, and a number of more than 64 bits is no place. -/
theorem attach_inserts_beside :
    (∃ later, beside.perform (attach 2 (.dictionary 1) (.number (.integer (-7)))) =
        (.ok (), later) ∧
      (later.perform (childrenOf 2)).1 = .ok [1, 0] ∧
      (later.perform (getText 2 "ok")).1 = (beside.perform (getText 1 "ok")).1 ∧
      (later.perform (getText 2 "no")).1 = (beside.perform (getText 2 "no")).1) ∧
    beside.perform (attach 2 (.dictionary 1) (.number (.integer (-Library.placeLimit - 1)))) =
      (.error (.noPlace .beyond), beside) := by
  obtain ⟨hrefused, -⟩ := reachable_beside.attach_inserts get?_beside (by decide) apart_beside
    (.number (.integer (-Library.placeLimit - 1)))
  obtain ⟨-, htaken⟩ := reachable_beside.attach_inserts get?_beside (by decide) apart_beside
    (.number (.integer (-7)))
  obtain ⟨later, index, rfl, -, hlater, -, hchildren, hkeys⟩ := htaken (some (-7)) (by decide)
  have hspeaks : ¬ beside.Silent "ok" 1 := fun hsilent => by cases hsilent
  refine ⟨⟨later, hlater, hchildren, ?_, (hkeys "no").2.1 (Or.inl (by decide))⟩,
    (hrefused .beyond (by decide)).1⟩
  exact (hkeys "ok").2.2.1 rfl (fun ref hmem => absurd hmem List.not_mem_nil) hspeaks

/-- A place just beyond 64 bits is refused, though the place before it is taken for the end. -/
theorem attach_beyond_refused :
    beside.Reachable ∧ ¬ beside.library.Reaches 1 2 ∧ ¬ beside.library.Reaches 2 1 ∧
      beside.perform (attach 2 (.dictionary 1) (.number (.integer Library.placeLimit))) =
        (.error (.noPlace .beyond), beside) ∧
      (beside.perform (childrenOf 2)).1 = .ok [0] ∧
      ((beside.after (.attach 2 (.dictionary 1)
        (.number (.integer (Library.placeLimit - 1))))).perform (childrenOf 2)).1 =
          .ok [0, 1] := by
  refine ⟨reachable_beside, apart_beside, ?_, rfl, rfl, rfl⟩
  intro hdown
  rcases Relation.ReflTransGen.cases_head hdown with heq | ⟨child, ⟨dictionary, hget, hmem⟩, hrest⟩
  · exact absurd heq (by decide)
  · cases hget
    obtain rfl := List.mem_singleton.1 hmem
    rcases Relation.ReflTransGen.cases_head hrest with heq | ⟨below, ⟨dictionary, hget, hmem⟩, -⟩
    · exact absurd heq (by decide)
    · cases hget
      cases hmem

end Phrasebook.Session
