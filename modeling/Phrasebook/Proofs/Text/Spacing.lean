import Mathlib.Data.List.DropRight
import Mathlib.Data.List.TakeWhile
import Phrasebook.Text.Blank

/-!
White space around things. A text is cut in a single way into a run of characters of one kind and
a remainder that does not begin with that kind, so what a scanner takes off is what was written.
Trimming does not see the white space on either side of what it trims, and the order in which the
two ends are trimmed makes no difference.
-/
namespace Phrasebook

structure Gap where
  text : Text
  blank : ∀ c ∈ text, Text.isBlank c

theorem Gap.ext {gap other : Gap} (h : gap.text = other.text) : gap = other := by
  cases gap
  cases other
  simpa using h

def Gap.empty : Gap := ⟨[], by simp⟩

def Gap.space : Gap := ⟨" ", List.all_eq_true.1 rfl⟩

/-- A thing as it is written with white space on either side. -/
structure Spaced (α : Type) where
  before : Gap
  item : α
  after : Gap

def Spaced.text {α : Type} (write : α → Text) (spaced : Spaced α) : Text :=
  spaced.before.text ++ write spaced.item ++ spaced.after.text

namespace Text

/-- A text does not begin with a character of some kind; it may be empty. -/
def StartsWithout (p : Char → Bool) (text : Text) : Prop := ∀ c ∈ text.head?, p c = false

@[simp]
theorem startsWithout_nil (p : Char → Bool) : StartsWithout p [] := by
  simp [StartsWithout]

@[simp]
theorem startsWithout_cons (p : Char → Bool) (c : Char) (rest : Text) :
    StartsWithout p (c :: rest) ↔ p c = false := by
  simp [StartsWithout]

theorem StartsWithout.mono {p q : Char → Bool} {text : Text} (h : StartsWithout q text)
    (hpq : ∀ c, p c → q c) : StartsWithout p text := by
  intro c hc
  by_contra hp
  rw [Bool.not_eq_false] at hp
  exact Bool.eq_false_iff.1 (h c hc) (hpq c hp)

/-- What a text starts with does not depend on what is behind one of its characters. -/
theorem StartsWithout.append_cons {p : Char → Bool} {c : Char} {rest : Text} (first : Text)
    (other : Text) (h : StartsWithout p (first ++ c :: rest)) :
    StartsWithout p (first ++ c :: other) := by
  cases first <;> exact h

/-- A character of some kind is none that is not of it. -/
theorem ne_of_kind {p : Char → Bool} {c d : Char} (hc : p c) (hd : p d = false) : c ≠ d := by
  rintro rfl
  rw [hc] at hd
  cases hd

def blankCodes : List Nat :=
  List.range' 0x9 5 ++ List.range' 0x1C 5 ++ [0x85, 0xA0, 0x1680] ++ List.range' 0x2000 11 ++
    [0x2028, 0x2029, 0x202F, 0x205F, 0x3000]

/-- A kind to which no white space belongs is told from it by its finitely many codes. -/
theorem isBlank_of_kind {p : Char → Bool} (hcodes : ∀ n ∈ blankCodes, p (Char.ofNat n) = false)
    {c : Char} (h : p c) : isBlank c = false := by
  by_contra hblank
  have hcode : c.toNat ∈ blankCodes := by
    simp only [Bool.not_eq_false, isBlank, Bool.or_eq_true, Bool.and_eq_true, decide_eq_true_eq,
      beq_iff_eq] at hblank
    simp only [blankCodes, List.mem_append, List.mem_range'_1, List.mem_cons, List.not_mem_nil,
      or_false]
    omega
  have hkind := hcodes _ hcode
  rw [Char.ofNat_toNat, h] at hkind
  cases hkind

theorem isBlank_of_isAlpha {c : Char} (h : c.isAlpha) : isBlank c = false :=
  isBlank_of_kind (by decide +kernel) h

theorem dropWhile_of_startsWithout {p : Char → Bool} {text : Text} (h : StartsWithout p text) :
    text.dropWhile p = text := by
  cases text with
  | nil => rfl
  | cons c rest => exact List.dropWhile_cons_of_neg (by simpa using h)

theorem startsWithout_dropWhile (p : Char → Bool) (text : Text) :
    StartsWithout p (text.dropWhile p) := by
  intro c hc
  have hnot := List.head?_dropWhile_not p text
  rw [Option.mem_def.1 hc] at hnot
  exact hnot

section Runs

variable {p : Char → Bool} {run other rest left : Text}

theorem dropWhile_run (hrun : ∀ c ∈ run, p c) (hrest : StartsWithout p rest) :
    (run ++ rest).dropWhile p = rest := by
  rw [List.dropWhile_append_of_pos hrun]
  exact dropWhile_of_startsWithout hrest

theorem takeWhile_run (hrun : ∀ c ∈ run, p c) (hrest : StartsWithout p rest) :
    (run ++ rest).takeWhile p = run := by
  have hcut := List.takeWhile_append_dropWhile (p := p) (l := run ++ rest)
  rw [dropWhile_run hrun hrest] at hcut
  exact List.append_cancel_right hcut

/-- A run and what follows it can be told apart in the whole. -/
theorem run_unique (hrun : ∀ c ∈ run, p c) (hother : ∀ c ∈ other, p c)
    (hrest : StartsWithout p rest) (hleft : StartsWithout p left)
    (h : run ++ rest = other ++ left) : run = other ∧ rest = left := by
  constructor
  · rw [← takeWhile_run hrun hrest, h, takeWhile_run hother hleft]
  · rw [← dropWhile_run hrun hrest, h, dropWhile_run hother hleft]

/-- A text of one kind that comes first in the whole comes first in the run. -/
theorem prefix_run_iff {first : Text} (hfirst : ∀ c ∈ first, p c) (hrest : StartsWithout p rest) :
    first <+: run ++ rest ↔ first <+: run := by
  constructor
  · rintro ⟨tail, htail⟩
    rcases List.append_eq_append_iff.1 htail with ⟨last, hrun, -⟩ | ⟨last, hlast, hbehind⟩
    · exact ⟨last, hrun.symm⟩
    · cases last with
      | nil => exact ⟨[], by rw [List.append_nil, hlast, List.append_nil]⟩
      | cons c last =>
        rw [hbehind, List.cons_append, startsWithout_cons] at hrest
        have hc := hfirst c (by simp [hlast])
        rw [hrest] at hc
        cases hc
  · rintro ⟨tail, rfl⟩
    exact ⟨tail ++ rest, (List.append_assoc ..).symm⟩

end Runs

theorem trimLeft_gap (gap : Gap) (text : Text) : trimLeft (gap.text ++ text) = trimLeft text :=
  List.dropWhile_append_of_pos gap.blank

/-- The white space that trimming on the left takes off. -/
theorem exists_gap (text : Text) : ∃ gap : Gap, text = gap.text ++ trimLeft text := by
  have hblank : ∀ c ∈ text.takeWhile isBlank, isBlank c := fun c hc => List.mem_takeWhile_imp hc
  exact ⟨⟨_, hblank⟩, List.takeWhile_append_dropWhile.symm⟩

theorem trimRight_append (first last : Text) :
    trimRight (first ++ last) =
      if trimRight last = [] then trimRight first else first ++ trimRight last := by
  have hnil : (last.reverse.dropWhile isBlank).isEmpty ↔ trimRight last = [] := by
    simp [trimRight]
  rw [trimRight, List.reverse_append, List.dropWhile_append]
  by_cases h : trimRight last = []
  · rw [if_pos (hnil.2 h), if_pos h]
    rfl
  · rw [if_neg (mt hnil.1 h), if_neg h, List.reverse_append, List.reverse_reverse]
    rfl

/-- What ends with no white space stays as it is when more is trimmed behind it. -/
theorem trimRight_append_of_trimRight {first : Text} (h : trimRight first = first) (last : Text) :
    trimRight (first ++ last) = first ++ trimRight last := by
  rw [trimRight_append]
  split
  · next hlast => rw [h, hlast, List.append_nil]
  · rfl

theorem trimRight_blank (gap : Gap) : trimRight gap.text = [] := by
  have hblank : ∀ c ∈ gap.text.reverse, isBlank c :=
    fun c hc => gap.blank c (List.mem_reverse.1 hc)
  simpa [trimRight] using hblank

theorem trimRight_gap (text : Text) (gap : Gap) : trimRight (text ++ gap.text) = trimRight text := by
  rw [trimRight_append, if_pos (trimRight_blank gap)]

theorem trimRight_concat (text : Text) {c : Char} (h : isBlank c = false) :
    trimRight (text ++ [c]) = text ++ [c] := by
  simp [trimRight, h]

theorem startsWithout_trimRight {p : Char → Bool} {text : Text} (h : StartsWithout p text) :
    StartsWithout p (trimRight text) := by
  obtain ⟨rest, hrest⟩ : trimRight text <+: text := List.rdropWhile_prefix isBlank text
  cases htrim : trimRight text with
  | nil => exact startsWithout_nil p
  | cons c tail =>
    rw [htrim] at hrest
    rw [← hrest] at h
    exact h

/-- The two ends are trimmed in either order. -/
theorem trimLeft_trimRight (text : Text) : trimLeft (trimRight text) = trim text := by
  obtain ⟨gap, htext⟩ := exists_gap text
  have hcore : StartsWithout isBlank (trimLeft text) := startsWithout_dropWhile isBlank text
  have htrim : trimLeft (trimRight text) = trimRight (trimLeft text) := by
    conv => lhs; rw [htext, trimRight_append]
    split
    · next hnil =>
      rw [trimRight_blank, hnil]
      rfl
    · rw [trimLeft_gap]
      exact dropWhile_of_startsWithout (startsWithout_trimRight hcore)
  exact htrim

/-- Trimming leaves what is visible at both of its ends, and trims what follows it. -/
theorem trim_gap_append (before : Gap) {visible : Text} (hne : visible ≠ [])
    (hstart : StartsWithout isBlank visible) (hend : trimRight visible = visible) (last : Text) :
    trim (before.text ++ (visible ++ last)) = visible ++ trimRight last := by
  obtain ⟨c, rest, rfl⟩ := List.exists_cons_of_ne_nil hne
  have hvisible : StartsWithout isBlank (c :: rest ++ last) := by
    rw [startsWithout_cons] at hstart
    rwa [List.cons_append, startsWithout_cons]
  rw [trim, trimLeft_gap, trimLeft, dropWhile_of_startsWithout hvisible,
    trimRight_append_of_trimRight hend]

theorem trim_spaced (before : Gap) (text : Text) (after : Gap) :
    trim (before.text ++ text ++ after.text) = trim text := by
  rw [trim, List.append_assoc, trimLeft_gap, ← trim, ← trimLeft_trimRight, trimRight_gap,
    trimLeft_trimRight]

theorem trim_eq_self_iff (text : Text) :
    trim text = text ↔ StartsWithout isBlank text ∧ trimRight text = text := by
  constructor
  · intro h
    constructor
    · rw [← h, ← trimLeft_trimRight]
      exact startsWithout_dropWhile isBlank (trimRight text)
    · rw [← h, trim]
      exact List.rdropWhile_idempotent isBlank (trimLeft text)
  · rintro ⟨hstart, hend⟩
    rw [trim, trimLeft, dropWhile_of_startsWithout hstart, hend]

/-- The end of a trimmed text, once the white space in front of it is off, is trimmed. -/
theorem trim_trimLeft_of_suffix {text last : Text} (h : trim text = text) (hsuffix : last <:+ text) :
    trim (trimLeft last) = trimLeft last := by
  obtain ⟨-, hend⟩ := (trim_eq_self_iff text).1 h
  rw [trim_eq_self_iff]
  refine ⟨startsWithout_dropWhile isBlank last, List.rdropWhile_eq_self_iff.2 fun hne => ?_⟩
  obtain ⟨first, rfl⟩ : trimLeft last <:+ text := (List.dropWhile_suffix isBlank).trans hsuffix
  have hvisible := List.rdropWhile_eq_self_iff.1 hend (List.append_ne_nil_of_right_ne_nil first hne)
  rwa [List.getLast_append_of_right_ne_nil _ _ hne] at hvisible

/-- The white space that trimming takes off. -/
theorem exists_gaps (text : Text) :
    ∃ before after : Gap, text = before.text ++ trim text ++ after.text := by
  obtain ⟨before, hbefore⟩ := exists_gap text
  obtain ⟨after, hafter⟩ := exists_gap (trimLeft text).reverse
  have hblank : ∀ c ∈ after.text.reverse, isBlank c :=
    fun c hc => after.blank c (List.mem_reverse.1 hc)
  refine ⟨before, ⟨after.text.reverse, hblank⟩, ?_⟩
  have htrim : trimLeft text = trim text ++ after.text.reverse := by
    rw [← List.reverse_reverse (trimLeft text), hafter, List.reverse_append]
    rfl
  rw [List.append_assoc, ← htrim]
  exact hbefore

theorem trim_trim (text : Text) : trim (trim text) = trim text := by
  obtain ⟨before, after, htext⟩ := exists_gaps text
  conv => rhs; rw [htext, trim_spaced]

theorem mem_of_mem_trim {c : Char} {text : Text} (h : c ∈ trim text) : c ∈ text := by
  obtain ⟨before, after, htext⟩ := exists_gaps text
  rw [htext]
  exact List.mem_append_left _ (List.mem_append_right _ h)

/-- Characters that are exchanged for others that are visible too do not change what is trimmed. -/
theorem trim_replace {old new : Char} (hold : isBlank old = false) (hnew : isBlank new = false)
    (text : Text) : trim (replace old new text) = replace old new (trim text) := by
  have hblank : isBlank ∘ (fun c => if c = old then new else c) = isBlank := by
    funext c
    by_cases hc : c = old <;> simp [hc, hold, hnew]
  have hleft : ∀ text, trimLeft (replace old new text) = replace old new (trimLeft text) := by
    intro text
    rw [trimLeft, replace, List.dropWhile_map, hblank]
    rfl
  have hright : ∀ text, trimRight (replace old new text) = replace old new (trimRight text) := by
    intro text
    rw [trimRight, replace, ← List.map_reverse, List.dropWhile_map, hblank, ← List.map_reverse]
    rfl
  rw [trim, hleft, hright, ← trim]

end Text
end Phrasebook
