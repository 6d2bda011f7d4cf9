import Phrasebook.Proofs.Session.Misses

/-!
What has happened to a dictionary decides what is in it. An entry is there if it was written and
nothing has happened to its key since. The keys are in the order in which they came to live: a key
that is overwritten lives on, one that is removed, or cleared with all others, and written again
comes to live anew.
-/
namespace Phrasebook.Dictionary

inductive Event
  | written (entry : Entry)
  | removed (key : Text)
  | cleared

abbrev History := List Event

namespace Event

def plain (entry : Text × Text) : Event := .written ⟨entry.1, entry.2, none⟩

/-- What was under the key before is there no longer. -/
def Concerns (key : Text) : Event → Prop
  | written entry => entry.key = key
  | removed gone => gone = key
  | cleared => True

def apply (entries : OrderedMap Entry) : Event → OrderedMap Entry
  | written entry => entries.set entry.key entry
  | removed key => entries.erase key
  | cleared => .empty

theorem foldl_plain (entries : OrderedMap Entry) (texts : List (Text × Text)) :
    (texts.map plain).foldl apply entries = entries.setAll (plainEntries texts) := by
  rw [OrderedMap.setAll, plainEntries, List.foldl_map, List.foldl_map]
  rfl

theorem get?_apply (entries : OrderedMap Entry) (event : Event) (key : Text) (entry : Entry) :
    (apply entries event).get? key = some entry ↔
      event = .written entry ∧ entry.key = key ∨
        ¬ event.Concerns key ∧ entries.get? key = some entry := by
  cases event with
  | written other =>
    rw [apply, OrderedMap.get?_set]
    by_cases hkey : other.key = key
    · rw [if_pos hkey]
      constructor
      · intro hget
        obtain rfl := Option.some.inj hget
        exact Or.inl ⟨rfl, hkey⟩
      · rintro (⟨⟨⟩, -⟩ | ⟨hconcerns, -⟩)
        · rfl
        · exact absurd hkey hconcerns
    · rw [if_neg hkey]
      constructor
      · exact fun hget => Or.inr ⟨hkey, hget⟩
      · rintro (⟨⟨⟩, hsame⟩ | ⟨-, hget⟩)
        · exact absurd hsame hkey
        · exact hget
  | removed gone =>
    rw [apply, OrderedMap.get?_erase]
    by_cases hkey : gone = key
    · simp [Concerns, hkey]
    · simp [Concerns, hkey]
  | cleared => simp [apply, Concerns, OrderedMap.get?, OrderedMap.empty, OrderedMap.find?]

/-- An event takes keys away or brings one, which goes to the end. -/
theorem keys_apply (entries : OrderedMap Entry) (event : Event) :
    List.Sublist (apply entries event).keys entries.keys ∨
      ∃ key, key ∉ entries.keys ∧ (apply entries event).keys = entries.keys ++ [key] := by
  cases event with
  | written entry =>
    rw [apply, OrderedMap.keys_set]
    split
    · exact Or.inl (List.Sublist.refl _)
    · next hnew => exact Or.inr ⟨entry.key, hnew, rfl⟩
  | removed key =>
    rw [apply, OrderedMap.keys_erase]
    exact Or.inl List.filter_sublist
  | cleared => exact Or.inl (List.nil_sublist _)

end Event

namespace History

/-- The entry was written, and nothing has happened to its key since. -/
def LastWrite (history : History) (entry : Entry) : Prop :=
  ∃ before after, history = before ++ .written entry :: after ∧
    ∀ event ∈ after, ¬ event.Concerns entry.key

def Live (history : History) (key : Text) : Prop :=
  ∃ entry, entry.key = key ∧ history.LastWrite entry

/-- The event with this index brought the key to life, and it has lived since. -/
def LivesSince (history : History) (key : Text) (index : Nat) : Prop :=
  index < history.length ∧ ¬ Live (history.take index) key ∧
    ∀ count, index < count → count ≤ history.length → Live (history.take count) key

variable {history : History} {event : Event} {entry : Entry} {key : Text} {index : Nat}

theorem lastWrite_concat :
    LastWrite (history ++ [event]) entry ↔
      event = .written entry ∨ ¬ event.Concerns entry.key ∧ history.LastWrite entry := by
  constructor
  · rintro ⟨before, after, heq, hafter⟩
    rcases List.eq_nil_or_concat after with rfl | ⟨earlier, last, rfl⟩
    · exact Or.inl (List.singleton_inj.1 (List.append_inj' heq rfl).2)
    · rw [List.concat_eq_append] at heq hafter
      have hsplit : history ++ [event] = (before ++ .written entry :: earlier) ++ [last] := by
        rw [heq, List.append_assoc, List.cons_append]
      obtain ⟨rfl, hlast⟩ := List.append_inj' hsplit rfl
      obtain rfl := List.singleton_inj.1 hlast
      refine Or.inr ⟨hafter event (by simp), before, earlier, rfl, fun between hmem => ?_⟩
      exact hafter between (List.mem_append_left _ hmem)
  · rintro (rfl | ⟨hconcerns, before, after, rfl, hafter⟩)
    · exact ⟨history, [], rfl, by simp⟩
    · refine ⟨before, after ++ [event], by simp, fun between hmem => ?_⟩
      rcases List.mem_append.1 hmem with hearlier | hlast
      · exact hafter between hearlier
      · rwa [List.mem_singleton.1 hlast]

theorem LivesSince.live (h : history.LivesSince key index) : history.Live key := by
  have hall := h.2.2 history.length h.1 (Nat.le_refl _)
  rwa [List.take_length] at hall

/-- A key that lives on has lived since the same event, and one that has come to live since the
last. -/
theorem livesSince_concat :
    LivesSince (history ++ [event]) key index ↔
      Live (history ++ [event]) key ∧
        (history.LivesSince key index ∨ index = history.length ∧ ¬ history.Live key) := by
  have htake : ∀ count ≤ history.length, (history ++ [event]).take count = history.take count :=
    fun count hle => List.take_append_of_le_length hle
  have hlength : (history ++ [event]).length = history.length + 1 := List.length_append ..
  constructor
  · intro h
    refine ⟨h.live, ?_⟩
    obtain ⟨hindex, hdead, hlive⟩ := h
    rw [hlength] at hindex hlive
    rw [htake index (Nat.le_of_lt_succ hindex)] at hdead
    rcases Nat.lt_or_eq_of_le (Nat.le_of_lt_succ hindex) with hlt | rfl
    · refine Or.inl ⟨hlt, hdead, fun count hlater hle => ?_⟩
      rw [← htake count hle]
      exact hlive count hlater (Nat.le_succ_of_le hle)
    · rw [List.take_length] at hdead
      exact Or.inr ⟨rfl, hdead⟩
  · rintro ⟨hlast, ⟨hindex, hdead, hlive⟩ | ⟨rfl, hdead⟩⟩
    · refine ⟨by omega, by rwa [htake index (Nat.le_of_lt hindex)], fun count hlater hle => ?_⟩
      rcases Nat.lt_or_eq_of_le hle with hlt | rfl
      · rw [htake count (by omega)]
        exact hlive count hlater (by omega)
      · rwa [List.take_length]
    · refine ⟨by omega, by rwa [htake _ (Nat.le_refl _), List.take_length], ?_⟩
      intro count hlater hle
      obtain rfl : count = (history ++ [event]).length := by omega
      rwa [List.take_length]

theorem Live.exists_livesSince (h : history.Live key) : ∃ index, history.LivesSince key index := by
  induction history using List.reverseRecOn with
  | nil =>
    obtain ⟨entry, -, before, after, heq, -⟩ := h
    simp at heq
  | append_singleton history event ih =>
    by_cases hbefore : Live history key
    · obtain ⟨index, hindex⟩ := ih hbefore
      exact ⟨index, livesSince_concat.2 ⟨h, Or.inl hindex⟩⟩
    · exact ⟨history.length, livesSince_concat.2 ⟨h, Or.inr ⟨rfl, hbefore⟩⟩⟩

structure Leaves (history : History) (entries : OrderedMap Entry) : Prop where
  get : ∀ key entry, entries.get? key = some entry ↔ entry.key = key ∧ history.LastWrite entry
  order : entries.keys.Pairwise fun key other => ∀ index later,
    history.LivesSince key index → history.LivesSince other later → index < later

variable {entries : OrderedMap Entry}

theorem Leaves.mem_keys_iff (h : history.Leaves entries) (key : Text) :
    key ∈ entries.keys ↔ history.Live key := by
  rw [OrderedMap.mem_keys_iff, Option.ne_none_iff_exists']
  exact exists_congr (h.get key)

theorem leaves_nil : Leaves [] .empty where
  get := by
    intro key entry
    simp [LastWrite, OrderedMap.get?, OrderedMap.empty, OrderedMap.find?]
  order := List.Pairwise.nil

theorem Leaves.concat (h : history.Leaves entries) (event : Event) :
    Leaves (history ++ [event]) (Event.apply entries event) := by
  constructor
  · intro key entry
    rw [Event.get?_apply, h.get, lastWrite_concat]
    constructor
    · rintro (⟨hwritten, hkey⟩ | ⟨hconcerns, rfl, hlast⟩)
      · exact ⟨hkey, Or.inl hwritten⟩
      · exact ⟨rfl, Or.inr ⟨hconcerns, hlast⟩⟩
    · rintro ⟨rfl, hwritten | ⟨hconcerns, hlast⟩⟩
      · exact Or.inl ⟨hwritten, rfl⟩
      · exact Or.inr ⟨hconcerns, rfl, hlast⟩
  · have hearlier : ∀ key ∈ entries.keys, ∀ index,
        LivesSince (history ++ [event]) key index → history.LivesSince key index := by
      intro key hkey index hsince
      obtain ⟨-, hbefore | ⟨-, hdead⟩⟩ := livesSince_concat.1 hsince
      · exact hbefore
      · exact absurd ((h.mem_keys_iff key).1 hkey) hdead
    have hkept : entries.keys.Pairwise fun key other => ∀ index later,
        LivesSince (history ++ [event]) key index →
          LivesSince (history ++ [event]) other later → index < later := by
      refine h.order.imp_of_mem fun hkey hother hlt index later hindex hlater => ?_
      exact hlt index later (hearlier _ hkey index hindex) (hearlier _ hother later hlater)
    rcases Event.keys_apply entries event with hsub | ⟨new, hnew, hkeys⟩
    · exact hkept.sublist hsub
    · rw [hkeys, List.pairwise_append]
      refine ⟨hkept, List.pairwise_singleton _ _, ?_⟩
      intro key hkey other hother index later hindex hlater
      obtain rfl := List.mem_singleton.1 hother
      obtain ⟨-, hbefore | ⟨rfl, -⟩⟩ := livesSince_concat.1 hlater
      · exact absurd ((h.mem_keys_iff other).2 hbefore.live) hnew
      · exact (hearlier key hkey index hindex).1

theorem Leaves.append (h : history.Leaves entries) (events : History) :
    Leaves (history ++ events) (events.foldl Event.apply entries) := by
  induction events generalizing history entries with
  | nil => rwa [List.append_nil]
  | cons event events ih =>
    rw [List.append_cons]
    exact ih (h.concat event)

end History
end Phrasebook.Dictionary

namespace Phrasebook.Library

variable {library : Library} {ref : DictionaryRef} {locale : Text} {entries : OrderedMap Entry}

theorem lookup_simple (hget : library.get? ref = some (.simple locale entries)) (key : Text) :
    library.lookup ref key = .ok ((entries.get? key).map Entry.text) := by
  obtain ⟨steps, hsize⟩ := Nat.exists_eq_add_of_lt (lt_size_of_get? hget)
  rw [lookup, hsize, search, hget]
  cases hentry : entries.get? key <;>
    simp [Dictionary.own?, Dictionary.entries, Dictionary.children, firstAnswer, hentry]

theorem listing_simple (hget : library.get? ref = some (.simple locale entries)) :
    library.listing ref = .ok (entries.mapValues Entry.text) := by
  obtain ⟨steps, hsize⟩ := Nat.exists_eq_add_of_lt (lt_size_of_get? hget)
  rw [listing, hsize, collect, hget]
  rfl

end Phrasebook.Library

namespace Phrasebook.Session

open Dictionary (Event History)
open Dictionary.History (LastWrite Live LivesSince Leaves)

inductive Edit
  | set (key text : Text) (comment : Option Text)
  | update (texts : List (Text × Text))
  | replaceAll (texts : List (Text × Text))
  | remove (key : Text)

namespace Edit

def operation (ref : DictionaryRef) : Edit → Operation
  | set key text comment => .setText ref key text comment
  | update texts => .updateTexts ref texts
  | replaceAll texts => .replaceTexts ref texts
  | remove key => .removeText ref key

def events : Edit → History
  | set key text comment => [.written ⟨key, text, comment⟩]
  | update texts => texts.map .plain
  | replaceAll texts => .cleared :: texts.map .plain
  | remove key => [.removed key]

end Edit

def historyOf (initial : List (Text × Text)) (edits : List Edit) : History :=
  initial.map .plain ++ edits.flatMap Edit.events

variable {session : Session} {ref : DictionaryRef} {locale : Text} {entries : OrderedMap Entry}

/-- An edit applies its events to the entries. -/
theorem get?_after_edit (hget : session.library.get? ref = some (.simple locale entries))
    (edit : Edit) :
    (session.after (edit.operation ref)).library.get? ref =
      some (.simple locale (edit.events.foldl Event.apply entries)) := by
  have hmodify : ∀ f, (session.library.modify ref f).get? ref =
      some (f (.simple locale entries)) := by
    intro f
    rw [Library.get?_modify, if_pos rfl, hget]
    rfl
  cases edit with
  | set key text comment => exact hmodify _
  | update texts =>
    rw [Edit.events, Event.foldl_plain]
    exact hmodify _
  | replaceAll texts =>
    rw [Edit.events, List.foldl_cons, Event.foldl_plain]
    exact hmodify _
  | remove key => exact hmodify _

/-- A run of edits adds the events of each to the history. -/
theorem exists_leaves_run (hget : session.library.get? ref = some (.simple locale entries))
    {history : History} (hleaves : history.Leaves entries) (edits : List Edit) :
    ∃ last, (session.run (edits.map (Edit.operation ref))).library.get? ref =
        some (.simple locale last) ∧
      Leaves (history ++ edits.flatMap Edit.events) last := by
  induction edits generalizing session entries history with
  | nil => exact ⟨entries, hget, by rwa [List.flatMap_nil, List.append_nil]⟩
  | cons edit edits ih =>
    rw [List.flatMap_cons, ← List.append_assoc]
    exact ih (get?_after_edit hget edit) (hleaves.append edit.events)

/-- What is told of a simple dictionary is told from its entries. -/
theorem observe_simple (hget : session.library.get? ref = some (.simple locale entries)) :
    (∀ key, session.perform (getEntry ref key) = (.ok (entries.get? key), session)) ∧
      (∀ key, session.perform (getText ref key) =
        (.ok ((entries.get? key).map Entry.text), session)) ∧
      (∀ key, (session.perform (removeText ref key)).1 = .ok (entries.contains key)) ∧
      session.perform (allTexts ref) = (.ok (entries.mapValues Entry.text), session) := by
  refine ⟨fun key => ?_, fun key => ?_, fun key => ?_, ?_⟩
  · simp only [getEntry, perform_bind, perform_dictionary?, hget, perform_pure]
    rfl
  · rw [perform_getText, Library.lookup_simple hget]
    rfl
  · simp only [removeText, perform_bind, perform_dictionary?, perform_modifyDictionary,
      perform_pure, hget]
    rfl
  · rw [perform_allTexts, Library.listing_simple hget]
    rfl

/-- After any edits of a dictionary that was made with some texts, the entry of a key is the last
that was written under it, if the key was neither removed nor cleared since. Its text is the text
of the key, and removing the key tells whether it is there. All texts are listed once, those of
keys that have lived for longer before the others. -/
theorem entries_follow_history (session : Session) (locale : Text) (initial : List (Text × Text))
    (edits : List Edit) :
    ∃ ref made final, session.perform (createSimple locale initial) = (.ok ref, made) ∧
      final = made.run (edits.map (Edit.operation ref)) ∧
      (∀ key, ∃ found present,
        final.perform (getEntry ref key) = (.ok found, final) ∧
        (∀ entry, found = some entry ↔
          entry.key = key ∧ LastWrite (historyOf initial edits) entry) ∧
        final.perform (getText ref key) = (.ok (found.map Entry.text), final) ∧
        (final.perform (removeText ref key)).1 = .ok present ∧
        (present = true ↔ Live (historyOf initial edits) key)) ∧
      ∃ all, final.perform (allTexts ref) = (.ok all, final) ∧ all.keys.Nodup ∧
        (∀ key, final.perform (getText ref key) = (.ok (all.get? key), final)) ∧
        (∀ key, key ∈ all.keys ↔ Live (historyOf initial edits) key) ∧
        (∀ key ∈ all.keys, ∃ index, LivesSince (historyOf initial edits) key index) ∧
        all.keys.Pairwise fun key other => ∀ index later,
          LivesSince (historyOf initial edits) key index →
            LivesSince (historyOf initial edits) other later → index < later := by
  let made : Session := { session with
    library := (session.library.add
      (.simple locale (.ofList (Dictionary.plainEntries initial)))).2 }
  have hmade : made.library.get? session.library.size =
      some (.simple locale (.ofList (Dictionary.plainEntries initial))) := by
    rw [Library.get?_add, if_pos rfl]
  have hinitial : Leaves (initial.map .plain) (.ofList (Dictionary.plainEntries initial)) := by
    rw [OrderedMap.ofList, ← Event.foldl_plain]
    exact Dictionary.History.leaves_nil.append (initial.map .plain)
  obtain ⟨entries, hget, hleaves⟩ := exists_leaves_run hmade hinitial edits
  rw [← historyOf] at hleaves
  obtain ⟨hentry, htext, hremove, hall⟩ := observe_simple hget
  refine ⟨session.library.size, made, _, rfl, rfl, fun key => ?_, ?_⟩
  · refine ⟨entries.get? key, entries.contains key, hentry key, hleaves.get key, htext key,
      hremove key, ?_⟩
    rw [entries.contains_iff, hleaves.mem_keys_iff]
  · have hkeys : (entries.mapValues Entry.text).keys = entries.keys := by
      simp [OrderedMap.keys, OrderedMap.mapValues, Function.comp_def]
    refine ⟨entries.mapValues Entry.text, hall, OrderedMap.nodup_keys _, fun key => ?_, ?_⟩
    · rw [OrderedMap.get?_mapValues, htext key]
    · rw [hkeys]
      refine ⟨hleaves.mem_keys_iff, fun key hkey => ?_, hleaves.order⟩
      exact ((hleaves.mem_keys_iff key).1 hkey).exists_livesSince

/-- What is overwritten keeps its place, what is removed loses it. -/
example : (((({} : Session).after (.createSimple "en_US" [("ok", "OK"), ("no", "No")])).run
    ([.remove "ok", .update [("ok", "Fine"), ("no", "Nope")]].map
      (Edit.operation 0))).perform (allTexts 0)).1.map OrderedMap.entries =
        .ok [("no", "Nope"), ("ok", "Fine")] := rfl

end Phrasebook.Session
