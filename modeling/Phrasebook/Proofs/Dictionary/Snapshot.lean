import Mathlib.Data.Set.Card
import Phrasebook.Proofs.Session.Change

/-!
A dictionary is asked for a single key, or for all its texts at once. The one way stops at the
first dictionary that has the key; the other goes through all of them and keeps the text that came
first under each key. Both follow the same order, so they agree, key by key and level by level, as
long as both end. Dictionaries of other makers are left out, since theirs need not agree.
-/
namespace Phrasebook

def Dictionary.isForeign : Dictionary → Bool
  | .foreign .. => true
  | _ => false

theorem Dictionary.own?_eq_get?_ownTexts {dictionary : Dictionary}
    (h : dictionary.isForeign = false) (key : Text) :
    dictionary.own? key = dictionary.ownTexts.get? key := by
  cases dictionary with
  | simple locale entries => exact (entries.get?_mapValues Entry.text key).symm
  | composite locale entries children => exact (entries.get?_mapValues Entry.text key).symm
  | foreign lookup listing => cases h

namespace Library

/-- Merging keeps what is there and adds the first of what is not. -/
theorem get?_foldl_setDefault (entries : List (Text × Text)) (first : OrderedMap Text)
    (key : Text) :
    (entries.foldl (fun merged entry => merged.setDefault entry.1 entry.2) first).get? key =
      (first.get? key).or (OrderedMap.find? key entries) := by
  induction entries generalizing first with
  | nil =>
    rw [List.foldl_nil, OrderedMap.find?, Option.or_none]
  | cons entry rest ih =>
    rw [List.foldl_cons, ih, OrderedMap.get?_setDefault, Option.or_assoc, OrderedMap.find?]
    by_cases h : entry.1 = key
    · rw [if_pos h, if_pos h, Option.some_or]
    · rw [if_neg h, if_neg h, Option.none_or]

/-- A merged listing answers as the first one does, and as the second one where that is silent. -/
theorem get?_merge (first second : OrderedMap Text) (key : Text) :
    (merge first second).get? key = (first.get? key).or (second.get? key) :=
  get?_foldl_setDefault second.entries first key

/-- Merging the listings of some dictionaries is asking them in turn, for each key. -/
theorem firstAnswer_of_mergeAll {list : DictionaryRef → Except Endless (OrderedMap Text)}
    {ask : DictionaryRef → Except Endless (Option Text)} {key : Text} {refs : List DictionaryRef}
    (hask : ∀ ref ∈ refs, ∀ listing, list ref = .ok listing → ask ref = .ok (listing.get? key))
    {merged all : OrderedMap Text} (hall : mergeAll list merged refs = .ok all) :
    ∃ answer, firstAnswer ask refs = .ok answer ∧ all.get? key = (merged.get? key).or answer := by
  induction refs generalizing merged with
  | nil =>
    cases hall
    exact ⟨none, rfl, Option.or_none.symm⟩
  | cons ref refs ih =>
    obtain ⟨hfirst, hrest⟩ := List.forall_mem_cons.1 hask
    cases hlist : list ref with
    | error e => simp [mergeAll, hlist] at hall
    | ok listing =>
      simp only [mergeAll, hlist] at hall
      obtain ⟨answer, hanswer, hget⟩ := ih hrest hall
      rw [get?_merge, Option.or_assoc] at hget
      have hown := hfirst listing hlist
      cases hfound : listing.get? key with
      | some text =>
        rw [hfound] at hown hget
        exact ⟨some text, by simp [firstAnswer, hown], hget⟩
      | none =>
        rw [hfound] at hown hget
        exact ⟨answer, by simp [firstAnswer, hown, hanswer], hget⟩

/-- A search answers with what a listing of the same depth has under the key. -/
theorem search_of_collect {library : Library}
    (hown : ∀ dictionary ∈ library.dictionaries, dictionary.isForeign = false) (key : Text)
    {steps : Nat} {ref : DictionaryRef} {listing : OrderedMap Text}
    (h : library.collect steps ref = .ok listing) :
    library.search key steps ref = .ok (listing.get? key) := by
  induction steps generalizing ref listing with
  | zero => cases h
  | succ steps ih =>
    cases hget : library.get? ref with
    | none =>
      simp only [collect, hget, Except.ok.injEq] at h
      subst h
      simp only [search, hget]
      rfl
    | some dictionary =>
      simp only [collect, hget] at h
      obtain ⟨answer, hanswer, hlisting⟩ := firstAnswer_of_mergeAll (fun _ _ _ => ih) h
      rw [← Dictionary.own?_eq_get?_ownTexts (hown dictionary (List.mem_of_getElem? hget))]
        at hlisting
      cases hfirst : dictionary.own? key with
      | some text =>
        rw [hfirst, Option.some_or] at hlisting
        simp only [search, hget, hfirst, hlisting]
      | none =>
        rw [hfirst, Option.none_or] at hlisting
        simp only [search, hget, hfirst, hanswer, hlisting]

/-- Without foreign dictionaries a listing has exactly the texts that are found. -/
theorem lookup_of_listing {library : Library}
    (hown : ∀ dictionary ∈ library.dictionaries, dictionary.isForeign = false)
    {ref : DictionaryRef} {listing : OrderedMap Text} (h : library.listing ref = .ok listing)
    (key : Text) : library.lookup ref key = .ok (listing.get? key) :=
  search_of_collect hown key h

end Library

/-- A map has as many entries as there are keys that it has a value for. -/
theorem OrderedMap.encard_keys {α : Type} (map : OrderedMap α) :
    {key | map.get? key ≠ none}.encard = map.size := by
  have hkeys : {key | map.get? key ≠ none} = (map.keys.toFinset : Set Text) := by
    ext key
    rw [List.coe_toFinset]
    exact (map.mem_keys_iff key).symm
  have hnodup : map.keys.Nodup := map.nodup_keys
  rw [hkeys, Set.encard_coe_eq_coe_finsetCard, List.toFinset_card_of_nodup hnodup, keys,
    List.length_map, size]

namespace Session

/-- Whatever was set, removed and attached before, asking a dictionary for all texts, for one key,
whether it has a key and how many it has are four views of one map. -/
theorem Reachable.snapshot_agrees {session : Session} (hreachable : session.Reachable)
    (hacyclic : session.library.Acyclic)
    (hown : ∀ dictionary ∈ session.library.dictionaries, dictionary.isForeign = false)
    {ref : DictionaryRef} (href : ref < session.library.size) :
    ∃ snapshot : OrderedMap Text,
      session.perform (allTexts ref) = (.ok snapshot, session) ∧
      (∀ key, session.perform (getText ref key) = (.ok (snapshot.get? key), session)) ∧
      (∀ key, session.perform (containsKey ref (.text key)) =
        (.ok (decide (key ∈ snapshot.keys)), session)) ∧
      (∀ key, key ∈ snapshot.keys ↔ snapshot.get? key ≠ none) ∧
      ∃ count : Nat, session.perform (countKeys ref) = (.ok count, session) ∧
        {key | ∃ text, (session.perform (getText ref key)).1 = .ok (some text)}.encard = count := by
  obtain ⟨snapshot, hlisting⟩ :=
    (Library.listing_isOk_iff hreachable.sound.closed href).2 (hacyclic.not_leadsInCircle ref)
  have hlookup : ∀ key, session.library.lookup ref key = .ok (snapshot.get? key) :=
    Library.lookup_of_listing hown hlisting
  have hget : ∀ key, session.perform (getText ref key) = (.ok (snapshot.get? key), session) := by
    intro key
    rw [perform_getText, hlookup]
    rfl
  refine ⟨snapshot, ?_, hget, ?_, snapshot.mem_keys_iff, snapshot.size, ?_, ?_⟩
  · rw [perform_allTexts, hlisting]
    rfl
  · intro key
    have hcontains : (snapshot.get? key).isSome = decide (key ∈ snapshot.keys) := by
      rw [Bool.eq_iff_iff, decide_eq_true_iff]
      exact snapshot.contains_iff key
    rw [perform_containsKey, Library.contains, hlookup, ← hcontains]
    rfl
  · rw [perform_countKeys, Library.count, hlisting]
    rfl
  · rw [← snapshot.encard_keys]
    congr 1
    ext key
    show (∃ text, (session.perform (getText ref key)).1 = .ok (some text)) ↔
      snapshot.get? key ≠ none
    rw [hget]
    simp [Option.ne_none_iff_exists']

def sharing : Session :=
  ((({} : Session).after (.createSimple "en_US" [("ok", "OK"), ("no", "No")])).after
    (.createComposite "en_US" [.dictionary 0] [("ok", "")])).after
      (.createComposite "en_US" [.dictionary 1, .dictionary 0] [])

theorem reachable_sharing : sharing.Reachable := by
  refine .step _ (.step _ (.step _ .start trivial) ?_) ?_
  · rintro item hitem ref rfl
    obtain rfl : ref = 0 := by simpa using hitem
    decide
  · rintro item hitem ref rfl
    obtain rfl | rfl : ref = 1 ∨ ref = 0 := by simpa using hitem
    · decide
    · decide

theorem acyclic_sharing : sharing.library.Acyclic := by
  refine Library.acyclic_of_child_lt fun parent child hchild => ?_
  obtain ⟨dictionary, hget, hchild⟩ := hchild
  match parent with
  | 0 => cases hget; cases hchild
  | 1 =>
    cases hget
    obtain rfl : child = 0 := by simpa [Dictionary.children] using hchild
    decide
  | 2 =>
    cases hget
    obtain rfl | rfl : child = 1 ∨ child = 0 := by simpa [Dictionary.children] using hchild
    · decide
    · decide
  | _ + 3 => cases hget

theorem snapshot_agrees_sharing :
    ∃ snapshot : OrderedMap Text, sharing.perform (allTexts 2) = (.ok snapshot, sharing) ∧
      snapshot.get? "ok" = some "" ∧ snapshot.get? "yes" = none ∧
      sharing.perform (containsKey 2 (.text "ok")) = (.ok true, sharing) ∧
      {key | ∃ text, (sharing.perform (getText 2 key)).1 = .ok (some text)}.encard = (2 : Nat) := by
  have hown : ∀ dictionary ∈ sharing.library.dictionaries, dictionary.isForeign = false := by
    decide
  obtain ⟨snapshot, hall, hget, hcontains, hmem, count, hcount, hkeys⟩ :=
    reachable_sharing.snapshot_agrees acyclic_sharing hown
      (show 2 < sharing.library.size by decide)
  have hok : snapshot.get? "ok" = some "" := Except.ok.inj (congrArg Prod.fst (hget "ok")).symm
  have hyes : snapshot.get? "yes" = none := Except.ok.inj (congrArg Prod.fst (hget "yes")).symm
  refine ⟨snapshot, hall, hok, hyes, ?_, ?_⟩
  · have hkey : ("ok" : Text) ∈ snapshot.keys := by
      rw [hmem, hok]
      exact Option.some_ne_none _
    rw [hcontains, decide_eq_true hkey]
  · have htwo : count = 2 := Except.ok.inj (congrArg Prod.fst hcount).symm
    rw [hkeys, htwo]

end Session
end Phrasebook
