import Mathlib.Data.List.Basic
import Phrasebook.Placeholder.Substitution

/-!
Substitution, seen from the text. A scan cuts a text into stretches from left to right: the longest
key that begins at a place, or a single character if none does. The keys and the text decide the
scan, so there is exactly one, whatever the values are and in whatever order the table lists them.
Substituting fills in the stretches of that scan.
-/
namespace Phrasebook.Placeholder

inductive Stretch
  | copied (c : Char)
  | found (key : Text)
deriving DecidableEq

namespace Stretch

def text : Stretch → Text
  | copied c => [c]
  | found key => key

def filled (table : Table) : Stretch → Text
  | copied c => [c]
  | found key => (table.get? key).getD key

end Stretch

/-- A text is cut into stretches: the longest of the keys that begin at a place, else a character.
Empty keys do not count. -/
inductive Scan (keys : List Text) : Text → List Stretch → Prop
  | done : Scan keys [] []
  | copied {c : Char} {rest : Text} {stretches : List Stretch}
      (hnone : ∀ key ∈ keys, key ≠ [] → ¬ key <+: c :: rest) (hrest : Scan keys rest stretches) :
      Scan keys (c :: rest) (.copied c :: stretches)
  | found {text key rest : Text} {stretches : List Stretch} (hkey : key ∈ keys) (hne : key ≠ [])
      (htext : text = key ++ rest)
      (hlongest : ∀ other ∈ keys, other <+: text → other.length ≤ key.length)
      (hrest : Scan keys rest stretches) : Scan keys text (.found key :: stretches)

theorem eq_of_longest {keys : List Text} {text key other : Text} (hkey : key ∈ keys)
    (hother : other ∈ keys) (hbegins : key <+: text) (hbegins' : other <+: text)
    (hlongest : ∀ key' ∈ keys, key' <+: text → key'.length ≤ key.length)
    (hlongest' : ∀ key' ∈ keys, key' <+: text → key'.length ≤ other.length) : key = other := by
  have hle : key.length ≤ other.length := hlongest' key hkey hbegins
  have hge : other.length ≤ key.length := hlongest other hother hbegins'
  have hinside : key <+: other := List.prefix_of_prefix_length_le hbegins hbegins' hle
  exact hinside.eq_of_length (Nat.le_antisymm hle hge)

theorem Scan.unique {keys : List Text} {text : Text} {stretches others : List Stretch}
    (h : Scan keys text stretches) (h' : Scan keys text others) : stretches = others := by
  induction h generalizing others with
  | done =>
    cases h' with
    | done => rfl
    | found _ hne htext => exact absurd (List.append_eq_nil_iff.1 htext.symm).1 hne
  | copied hnone _ ih =>
    cases h' with
    | copied _ hrest => rw [ih hrest]
    | found hkey hne htext => exact absurd ⟨_, htext.symm⟩ (hnone _ hkey hne)
  | found hkey hne htext hlongest _ ih =>
    cases h' with
    | done => exact absurd (List.append_eq_nil_iff.1 htext.symm).1 hne
    | copied hnone => exact absurd ⟨_, htext.symm⟩ (hnone _ hkey hne)
    | found hkey' _ htext' hlongest' hrest' =>
      obtain rfl := eq_of_longest hkey hkey' ⟨_, htext.symm⟩ ⟨_, htext'.symm⟩ hlongest hlongest'
      obtain rfl := List.append_cancel_left (htext.symm.trans htext')
      rw [ih hrest']

/-- Only which keys there are counts. -/
theorem Scan.congr {keys keys' : List Text} {text : Text} {stretches : List Stretch}
    (hkeys : ∀ key, key ∈ keys' ↔ key ∈ keys) (h : Scan keys text stretches) :
    Scan keys' text stretches := by
  induction h with
  | done => exact .done
  | copied hnone _ ih => exact .copied (fun key hkey => hnone key ((hkeys key).1 hkey)) ih
  | found hkey hne htext hlongest _ ih =>
    refine .found ((hkeys _).2 hkey) hne htext ?_ ih
    intro other hother
    exact hlongest other ((hkeys other).1 hother)

/-- The stretches make up the text. -/
theorem Scan.flatMap_text {keys : List Text} {text : Text} {stretches : List Stretch}
    (h : Scan keys text stretches) : stretches.flatMap Stretch.text = text := by
  induction h with
  | done => rfl
  | copied _ _ ih =>
    rw [List.flatMap_cons, ih]
    rfl
  | found _ _ htext _ _ ih =>
    rw [List.flatMap_cons, ih, htext]
    rfl

theorem Scan.mem_keys {keys : List Text} {text key : Text} {stretches : List Stretch}
    (h : Scan keys text stretches) (hmem : .found key ∈ stretches) : key ∈ keys := by
  induction h with
  | done => cases hmem
  | copied _ _ ih =>
    rcases List.mem_cons.1 hmem with heq | hrest
    · cases heq
    · exact ih hrest
  | found hkey _ _ _ _ ih =>
    rcases List.mem_cons.1 hmem with heq | hrest
    · cases heq
      exact hkey
    · exact ih hrest

section ByLength

variable {table : Table} {text key value : Text}

theorem mem_byLength {entry : Text × Text} :
    entry ∈ byLength table ↔ entry ∈ table.entries ∧ entry.1 ≠ [] := by
  simp [byLength]

theorem pairwise_byLength (table : Table) :
    (byLength table).Pairwise fun a b => b.1.length ≤ a.1.length := by
  have hsorted : (byLength table).Pairwise fun a b => decide (b.1.length ≤ a.1.length) = true := by
    unfold byLength
    apply List.pairwise_mergeSort
    · intro a b c hab hbc
      simp only [decide_eq_true_eq] at *
      omega
    · intro a b
      simp only [Bool.or_eq_true, decide_eq_true_eq]
      omega
  simpa using hsorted

theorem entryAt?_eq_some (h : entryAt? (byLength table) text = some (key, value)) :
    table.get? key = some value ∧ key ≠ [] ∧ key <+: text ∧
      ∀ other ∈ table.keys, other <+: text → other.length ≤ key.length := by
  have hmem : (key, value) ∈ byLength table := List.mem_of_find?_eq_some h
  obtain ⟨hentry, hne⟩ := mem_byLength.1 hmem
  obtain ⟨hbegins, before, behind, hlist, hbefore⟩ := List.find?_eq_some_iff_append.1 h
  refine ⟨(table.get?_eq_some_iff key value).2 hentry, hne, List.isPrefixOf_iff_prefix.1 hbegins, ?_⟩
  intro other hother hinside
  by_cases hempty : other = []
  · simp [hempty]
  · obtain ⟨entry, hfound, rfl⟩ := List.mem_map.1 hother
    have htried : entry ∈ before ++ (key, value) :: behind := by
      rw [← hlist]
      exact mem_byLength.2 ⟨hfound, hempty⟩
    have hsorted := pairwise_byLength table
    rw [hlist, List.pairwise_append, List.pairwise_cons] at hsorted
    rcases List.mem_append.1 htried with hearlier | hlater
    · have hskipped := hbefore entry hearlier
      rw [List.isPrefixOf_iff_prefix.2 hinside] at hskipped
      cases hskipped
    · rcases List.mem_cons.1 hlater with rfl | hbehind
      · exact Nat.le_refl _
      · exact hsorted.2.1.1 entry hbehind

theorem entryAt?_eq_none (h : entryAt? (byLength table) text = none) :
    ∀ other ∈ table.keys, other ≠ [] → ¬ other <+: text := by
  intro other hother hne hinside
  obtain ⟨entry, hfound, rfl⟩ := List.mem_map.1 hother
  have hskipped := List.find?_eq_none.1 h entry (mem_byLength.2 ⟨hfound, hne⟩)
  exact hskipped (List.isPrefixOf_iff_prefix.2 hinside)

/-- Of the keys that begin a text the longest is found. -/
theorem entryAt?_of_longest (hkey : key ∈ table.keys) (hne : key ≠ []) (hbegins : key <+: text)
    (hlongest : ∀ other ∈ table.keys, other <+: text → other.length ≤ key.length) :
    ∃ value, table.get? key = some value ∧
      entryAt? (byLength table) text = some (key, value) := by
  cases hentry : entryAt? (byLength table) text with
  | none => exact absurd hbegins (entryAt?_eq_none hentry key hkey hne)
  | some entry =>
    obtain ⟨other, value⟩ := entry
    obtain ⟨hget, _, hbegins', hlongest'⟩ := entryAt?_eq_some hentry
    have hother : other ∈ table.keys := OrderedMap.mem_keys_of_get? hget
    obtain rfl := eq_of_longest hkey hother hbegins hbegins' hlongest hlongest'
    exact ⟨value, hget, rfl⟩

end ByLength

theorem replaceFrom_skip (entries : List (Text × Text)) (skip : Nat) (text : Text) :
    replaceFrom entries skip text = replaceFrom entries 0 (text.drop skip) := by
  induction text generalizing skip with
  | nil => simp [replaceFrom]
  | cons c rest ih =>
    cases skip with
    | zero => rfl
    | succ skip =>
      rw [replaceFrom, ih skip]
      rfl

theorem replaceFrom_copied {entries : List (Text × Text)} {c : Char} {rest : Text}
    (h : entryAt? entries (c :: rest) = none) :
    replaceFrom entries 0 (c :: rest) = c :: replaceFrom entries 0 rest := by
  rw [replaceFrom, h]

theorem replaceFrom_found {entries : List (Text × Text)} {key value rest : Text} (hne : key ≠ [])
    (h : entryAt? entries (key ++ rest) = some (key, value)) :
    replaceFrom entries 0 (key ++ rest) = value ++ replaceFrom entries 0 rest := by
  obtain ⟨c, tail, rfl⟩ := List.exists_cons_of_ne_nil hne
  rw [List.cons_append] at h ⊢
  have hskip : (c :: tail).length - 1 = tail.length := by simp
  rw [replaceFrom, h]
  simp only [hskip]
  rw [replaceFrom_skip, List.drop_left]

theorem substitute_of_scan {table : Table} {text : Text} {stretches : List Stretch}
    (h : Scan table.keys text stretches) :
    substitute text table = stretches.flatMap (Stretch.filled table) := by
  unfold substitute
  induction h with
  | done => rfl
  | @copied c rest stretches hnone _ ih =>
    have hentry : entryAt? (byLength table) (c :: rest) = none := by
      cases hentry : entryAt? (byLength table) (c :: rest) with
      | none => rfl
      | some entry =>
        obtain ⟨hget, hne, hbegins, -⟩ := entryAt?_eq_some hentry
        have hkey : entry.1 ∈ table.keys := OrderedMap.mem_keys_of_get? hget
        exact absurd hbegins (hnone _ hkey hne)
    rw [replaceFrom_copied hentry, ih]
    rfl
  | @found text key rest stretches hkey hne htext hlongest _ ih =>
    obtain ⟨value, hget, hentry⟩ := entryAt?_of_longest hkey hne ⟨rest, htext.symm⟩ hlongest
    rw [htext] at hentry ⊢
    rw [replaceFrom_found hne hentry, ih, List.flatMap_cons, Stretch.filled, hget]
    rfl

/-- There is a scan: by induction on the length of the text, along the entries that are tried. -/
theorem exists_scan (table : Table) (text : Text) :
    ∃ stretches, Scan table.keys text stretches := by
  induction hlength : text.length using Nat.strongRecOn generalizing text with
  | ind length ih =>
    cases text with
    | nil => exact ⟨[], .done⟩
    | cons c rest =>
      cases hentry : entryAt? (byLength table) (c :: rest) with
      | none =>
        obtain ⟨stretches, hrest⟩ := ih rest.length (by simp [← hlength]) rest rfl
        exact ⟨_, .copied (entryAt?_eq_none hentry) hrest⟩
      | some entry =>
        obtain ⟨hget, hne, ⟨after, hafter⟩, hlongest⟩ := entryAt?_eq_some hentry
        have hkey : entry.1 ∈ table.keys := OrderedMap.mem_keys_of_get? hget
        have hshorter : after.length < length := by
          have hpos : 0 < entry.1.length := List.length_pos_iff.2 hne
          rw [← hlength, ← hafter, List.length_append]
          omega
        obtain ⟨stretches, hrest⟩ := ih after.length hshorter after rfl
        exact ⟨_, .found hkey hne hafter.symm hlongest hrest⟩

theorem get?_perm {table table' : Table} (h : table'.entries.Perm table.entries) (key : Text) :
    table'.get? key = table.get? key := by
  apply Option.ext
  intro value
  rw [table'.get?_eq_some_iff, table.get?_eq_some_iff]
  exact h.mem_iff

theorem filled_congr {table table' : Table} (h : ∀ key, table'.get? key = table.get? key) :
    Stretch.filled table' = Stretch.filled table := by
  funext stretch
  cases stretch with
  | copied c => rfl
  | found key => rw [Stretch.filled, Stretch.filled, h]

/-- What is substituted depends on what is under the keys, and on nothing else of a table. -/
theorem substitute_congr {table table' : Table} (h : ∀ key, table'.get? key = table.get? key)
    (text : Text) : substitute text table' = substitute text table := by
  have hkeys : ∀ key, key ∈ table'.keys ↔ key ∈ table.keys := by
    intro key
    rw [OrderedMap.mem_keys_iff, OrderedMap.mem_keys_iff, h]
  obtain ⟨stretches, hscan⟩ := exists_scan table text
  rw [substitute_of_scan hscan, substitute_of_scan (hscan.congr hkeys), filled_congr h]

/-- There is one scan of a text, and substituting fills in its stretches. It does so for every
table of the same keys: what is replaced does not depend on the values, and no value is scanned.
So the order of a table makes no difference, and keys that are replaced by themselves leave the
text as it is. -/
theorem substitute_fills_the_scan (text : Text) (table : Table) :
    (∃ stretches, (∀ other, Scan table.keys text other ↔ other = stretches) ∧
      ∀ table' : Table, (∀ key, key ∈ table'.keys ↔ key ∈ table.keys) →
        substitute text table' = stretches.flatMap (Stretch.filled table')) ∧
    (∀ table' : Table, table'.entries.Perm table.entries →
      substitute text table' = substitute text table) ∧
    ((∀ key ∈ table.keys, table.get? key = some key) → substitute text table = text) := by
  obtain ⟨stretches, hscan⟩ := exists_scan table text
  have hfills : ∀ table' : Table, (∀ key, key ∈ table'.keys ↔ key ∈ table.keys) →
      substitute text table' = stretches.flatMap (Stretch.filled table') := by
    intro table' hkeys
    exact substitute_of_scan (hscan.congr hkeys)
  refine ⟨⟨stretches, ?_, hfills⟩, ?_, ?_⟩
  · intro other
    constructor
    · intro hother
      exact hother.unique hscan
    · rintro rfl
      exact hscan
  · intro table' hperm
    have hkeys : ∀ key, key ∈ table'.keys ↔ key ∈ table.keys := by
      intro key
      exact (hperm.map Prod.fst).mem_iff
    rw [hfills table' hkeys, substitute_of_scan hscan, filled_congr (get?_perm hperm)]
  · intro hself
    rw [substitute_of_scan hscan]
    have hfilled : ∀ stretch ∈ stretches, stretch.filled table = stretch.text := by
      intro stretch hmem
      cases stretch with
      | copied c => rfl
      | found key => rw [Stretch.filled, hself key (hscan.mem_keys hmem)]; rfl
    rw [List.flatMap_congr hfilled, hscan.flatMap_text]

def overlapping : Table := .ofList [("%n", "x"), ("%n%", "%m%"), ("%m%", "y"), ("", "z")]

theorem substitute_fills_the_scan_overlapping :
    substitute "%n%m%n" overlapping = "%m%mx" ∧
      substitute "%n%m%n" (.ofList [("", "z"), ("%m%", "y"), ("%n%", "%m%"), ("%n", "x")]) =
        "%m%mx" ∧
      substitute "%n%m%n" (.ofList [("%n%", "%n%"), ("%n", "%n")]) = "%n%m%n" := by
  obtain ⟨⟨stretches, hscan, hfills⟩, hperm, -⟩ :=
    substitute_fills_the_scan "%n%m%n" overlapping
  obtain ⟨-, -, hself⟩ :=
    substitute_fills_the_scan "%n%m%n" (.ofList [("%n%", "%n%"), ("%n", "%n")])
  have hstretches : stretches = [.found "%n%", .copied 'm', .found "%n"] := by
    have hfirst : ("%n%m%n" : Text) = ("%n%" : Text) ++ ("m%n" : Text) := rfl
    have hlast : ("%n" : Text) = ("%n" : Text) ++ ([] : Text) := rfl
    refine ((hscan _).1 ?_).symm
    refine .found (by decide) (by decide) hfirst (by decide) ?_
    refine .copied (by decide) ?_
    exact .found (by decide) (by decide) hlast (by decide) .done
  have hfilled : substitute "%n%m%n" overlapping = "%m%mx" := by
    rw [hfills overlapping fun _ => Iff.rfl, hstretches]
    rfl
  refine ⟨hfilled, ?_, hself (by decide)⟩
  rw [hperm _ (by decide), hfilled]

end Phrasebook.Placeholder
