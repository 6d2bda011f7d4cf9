import Phrasebook.Text.Basic

/-!
A map from texts that remembers the order in which its keys came to life. Setting a key that is
there keeps its place; one that is new, or was removed, goes to the end. No key occurs twice.
-/
namespace Phrasebook

structure OrderedMap (α : Type) where
  entries : List (Text × α)
  nodup_keys : (entries.map Prod.fst).Nodup

namespace OrderedMap

variable {α : Type}

def empty : OrderedMap α := ⟨[], List.nodup_nil⟩

def keys (map : OrderedMap α) : List Text := map.entries.map Prod.fst

def values (map : OrderedMap α) : List α := map.entries.map Prod.snd

def size (map : OrderedMap α) : Nat := map.entries.length

def find? (key : Text) : List (Text × α) → Option α
  | [] => none
  | entry :: rest => if entry.1 = key then some entry.2 else find? key rest

def get? (map : OrderedMap α) (key : Text) : Option α := find? key map.entries

def contains (map : OrderedMap α) (key : Text) : Bool := (map.get? key).isSome

/-- The entries with one set: in its place if it is there, else behind the others. -/
def place (key : Text) (value : α) : List (Text × α) → List (Text × α)
  | [] => [(key, value)]
  | entry :: rest => if entry.1 = key then (key, value) :: rest else entry :: place key value rest

theorem keys_place (key : Text) (value : α) (entries : List (Text × α)) :
    (place key value entries).map Prod.fst =
      if key ∈ entries.map Prod.fst then entries.map Prod.fst
      else entries.map Prod.fst ++ [key] := by
  induction entries with
  | nil => rfl
  | cons entry rest ih =>
    by_cases h : entry.1 = key
    · simp [place, h]
    · by_cases hmem : key ∈ rest.map Prod.fst
      · rw [if_pos hmem] at ih
        rw [if_pos (by simp [hmem])]
        simp [place, h, ih]
      · rw [if_neg hmem] at ih
        rw [if_neg (by simp [Ne.symm h, hmem])]
        simp [place, h, ih]

def set (map : OrderedMap α) (key : Text) (value : α) : OrderedMap α where
  entries := place key value map.entries
  nodup_keys := by
    rw [keys_place]
    split
    · exact map.nodup_keys
    · next h =>
      rw [List.nodup_append]
      refine ⟨map.nodup_keys, by simp, ?_⟩
      intro a ha b hb hab
      simp only [List.mem_singleton] at hb
      exact h (hb ▸ hab ▸ ha)

def erase (map : OrderedMap α) (key : Text) : OrderedMap α where
  entries := map.entries.filter (·.1 ≠ key)
  nodup_keys :=
    map.nodup_keys.sublist ((List.filter_sublist (l := map.entries)).map Prod.fst)

def setAll (map : OrderedMap α) (entries : List (Text × α)) : OrderedMap α :=
  entries.foldl (fun map entry => map.set entry.1 entry.2) map

def ofList (entries : List (Text × α)) : OrderedMap α := empty.setAll entries

def setDefault (map : OrderedMap α) (key : Text) (value : α) : OrderedMap α :=
  if map.contains key then map else map.set key value

def mapValues {β : Type} (f : α → β) (map : OrderedMap α) : OrderedMap β where
  entries := map.entries.map fun entry => (entry.1, f entry.2)
  nodup_keys := by simpa [Function.comp_def] using map.nodup_keys

theorem keys_set (map : OrderedMap α) (key : Text) (value : α) :
    (map.set key value).keys = if key ∈ map.keys then map.keys else map.keys ++ [key] :=
  keys_place key value map.entries

theorem keys_erase (map : OrderedMap α) (key : Text) :
    (map.erase key).keys = map.keys.filter (· ≠ key) := by
  simp [keys, erase, List.filter_map, Function.comp_def]

theorem find?_place (key key' : Text) (value : α) (entries : List (Text × α)) :
    find? key' (place key value entries) =
      if key = key' then some value else find? key' entries := by
  induction entries with
  | nil => rfl
  | cons entry rest ih =>
    by_cases hname : entry.1 = key
    · by_cases h : key = key' <;> simp [place, find?, hname, h]
    · by_cases h : key = key'
      · subst h
        simp [place, find?, hname, ih]
      · simp [place, find?, hname, h, ih]

theorem get?_set (map : OrderedMap α) (key key' : Text) (value : α) :
    (map.set key value).get? key' = if key = key' then some value else map.get? key' :=
  find?_place key key' value map.entries

theorem find?_filter (key key' : Text) (entries : List (Text × α)) :
    find? key' (entries.filter (·.1 ≠ key)) = if key = key' then none else find? key' entries := by
  induction entries with
  | nil => simp [find?]
  | cons entry rest ih =>
    by_cases hname : entry.1 = key
    · by_cases h : key = key' <;> simpa [find?, hname, h] using ih
    · by_cases h : key = key'
      · subst h
        simpa [find?, hname] using ih
      · by_cases hn : entry.1 = key'
        · subst hn
          simp [find?, hname, Ne.symm hname]
        · simpa [find?, hname, hn, h] using ih

theorem get?_erase (map : OrderedMap α) (key key' : Text) :
    (map.erase key).get? key' = if key = key' then none else map.get? key' :=
  find?_filter key key' map.entries

theorem find?_isSome (key : Text) (entries : List (Text × α)) :
    (find? key entries).isSome = true ↔ key ∈ entries.map Prod.fst := by
  induction entries with
  | nil => simp [find?]
  | cons entry rest ih =>
    by_cases h : entry.1 = key
    · simp [find?, h]
    · simp only [find?, h, if_false, ih, List.map_cons, List.mem_cons, Ne.symm h, false_or]

theorem contains_iff (map : OrderedMap α) (key : Text) : map.contains key ↔ key ∈ map.keys :=
  find?_isSome key map.entries

theorem mem_keys_iff (map : OrderedMap α) (key : Text) : key ∈ map.keys ↔ map.get? key ≠ none :=
  (map.contains_iff key).symm.trans Option.isSome_iff_ne_none

theorem mem_keys_of_get? {map : OrderedMap α} {key : Text} {value : α}
    (h : map.get? key = some value) : key ∈ map.keys := by
  rw [mem_keys_iff, h]
  simp

theorem get?_setDefault (map : OrderedMap α) (key key' : Text) (value : α) :
    (map.setDefault key value).get? key' =
      (map.get? key').or (if key = key' then some value else none) := by
  cases hget : map.get? key with
  | some present =>
    by_cases h : key = key'
    · subst h
      simp [setDefault, contains, hget]
    · simp [setDefault, contains, hget, h]
  | none =>
    by_cases h : key = key'
    · subst h
      simp [setDefault, contains, hget, get?_set]
    · simp [setDefault, contains, hget, get?_set, h]

theorem find?_mapValues {β : Type} (f : α → β) (key : Text) (entries : List (Text × α)) :
    find? key (entries.map fun entry => (entry.1, f entry.2)) = (find? key entries).map f := by
  induction entries with
  | nil => rfl
  | cons entry rest ih =>
    by_cases h : entry.1 = key
    · simp [find?, h]
    · simp [find?, h, ih]

theorem get?_mapValues {β : Type} (f : α → β) (map : OrderedMap α) (key : Text) :
    (map.mapValues f).get? key = (map.get? key).map f :=
  find?_mapValues f key map.entries

theorem find?_eq_some_iff {entries : List (Text × α)} (h : (entries.map Prod.fst).Nodup)
    (key : Text) (value : α) : find? key entries = some value ↔ (key, value) ∈ entries := by
  induction entries with
  | nil => simp [find?]
  | cons entry rest ih =>
    rw [List.map_cons, List.nodup_cons] at h
    by_cases hkey : entry.1 = key
    · have habsent : (key, value) ∉ rest := by
        intro hmem
        exact h.1 (hkey ▸ List.mem_map_of_mem hmem)
      simp [find?, ← hkey, Prod.ext_iff, eq_comm, hkey ▸ habsent]
    · have hne : (key, value) ≠ entry := by
        rintro rfl
        exact hkey rfl
      rw [find?, if_neg hkey, ih h.2, List.mem_cons, or_iff_right hne]

theorem get?_eq_some_iff (map : OrderedMap α) (key : Text) (value : α) :
    map.get? key = some value ↔ (key, value) ∈ map.entries :=
  find?_eq_some_iff map.nodup_keys key value

theorem mem_keys_setAll (map : OrderedMap α) (entries : List (Text × α)) (key : Text) :
    key ∈ (map.setAll entries).keys ↔ key ∈ map.keys ∨ key ∈ entries.map Prod.fst := by
  induction entries generalizing map with
  | nil => simp [setAll]
  | cons entry rest ih =>
    have hset : key ∈ (map.set entry.1 entry.2).keys ↔ key ∈ map.keys ∨ key = entry.1 := by
      rw [keys_set]
      split
      · next hmem =>
        constructor
        · exact Or.inl
        · rintro (h | rfl)
          · exact h
          · exact hmem
      · simp
    have hrest := ih (map.set entry.1 entry.2)
    rw [hset, or_assoc] at hrest
    simpa [setAll] using hrest

theorem mem_keys_ofList (entries : List (Text × α)) (key : Text) :
    key ∈ (ofList entries).keys ↔ key ∈ entries.map Prod.fst := by
  have hempty : key ∉ (empty : OrderedMap α).keys := List.not_mem_nil
  rw [ofList, mem_keys_setAll, or_iff_right hempty]

theorem get?_setAll_of_not_mem {key : Text} {entries : List (Text × α)}
    (h : key ∉ entries.map Prod.fst) (map : OrderedMap α) :
    (map.setAll entries).get? key = map.get? key := by
  induction entries generalizing map with
  | nil => rfl
  | cons entry rest ih =>
    obtain ⟨hne, hrest⟩ := not_or.1 (mt List.mem_cons.2 h)
    have hset : (map.set entry.1 entry.2).get? key = map.get? key := by
      rw [get?_set, if_neg (Ne.symm hne)]
    exact (ih hrest _).trans hset

/-- Of several entries with one key the last is had. -/
theorem get?_ofList_last {key : Text} {value : α} {before after : List (Text × α)}
    (h : key ∉ after.map Prod.fst) :
    (ofList (before ++ (key, value) :: after)).get? key = some value := by
  have hsplit : ofList (before ++ (key, value) :: after) =
      ((ofList before).set key value).setAll after := by
    simp [ofList, setAll]
  rw [hsplit, get?_setAll_of_not_mem h, get?_set, if_pos rfl]

/-- Entries with different keys are all had. -/
theorem get?_ofList_eq_some_iff {entries : List (Text × α)} (h : (entries.map Prod.fst).Nodup)
    (key : Text) (value : α) : (ofList entries).get? key = some value ↔ (key, value) ∈ entries := by
  have hget : ∀ value, (key, value) ∈ entries → (ofList entries).get? key = some value := by
    intro value hmem
    obtain ⟨before, after, rfl⟩ := List.append_of_mem hmem
    rw [List.map_append, List.map_cons, List.nodup_append, List.nodup_cons] at h
    exact get?_ofList_last h.2.1.1
  constructor
  · intro hsome
    obtain ⟨entry, hentry, rfl⟩ := List.mem_map.1 ((mem_keys_ofList _ _).1 (mem_keys_of_get? hsome))
    rw [hget entry.2 hentry] at hsome
    rw [← Option.some.inj hsome]
    exact hentry
  · exact hget value

/-- Leaving out entries does not change what is under the keys that are kept. -/
theorem get?_setAll_filter {p : Text → Bool} {key : Text} (hkey : p key)
    {map other : OrderedMap α} (h : map.get? key = other.get? key) (entries : List (Text × α)) :
    (map.setAll (entries.filter fun entry => p entry.1)).get? key =
      (other.setAll entries).get? key := by
  induction entries generalizing map other with
  | nil => exact h
  | cons entry rest ih =>
    by_cases hkept : p entry.1
    · simp only [List.filter_cons, hkept, if_true]
      exact ih (by rw [get?_set, get?_set, h])
    · have hne : entry.1 ≠ key := by
        rintro rfl
        exact hkept hkey
      simp only [List.filter_cons, hkept, Bool.false_eq_true, if_false]
      exact ih (by rw [get?_set, if_neg hne, h])

end OrderedMap
end Phrasebook
