/-!
Texts are lists of characters, so that positions, lengths and columns count code points.
String literals stand for the texts they spell. Splitting at a separator and joining with it
are inverse on parts that do not hold the separator.
-/
namespace Phrasebook

abbrev Text := List Char

instance : Coe String Text := ⟨String.toList⟩

namespace Text

def ofNat (n : Nat) : Text := Nat.toDigits 10 n

def ofInt : Int → Text
  | .ofNat n => ofNat n
  | .negSucc n => '-' :: ofNat (n + 1)

def toNat (digits : Text) : Nat := Nat.ofDigitChars 10 digits 0

theorem toNat_ofNat (n : Nat) : toNat (ofNat n) = n := Nat.ofDigitChars_ten_toDigits

theorem ofNat_injective {m n : Nat} (h : ofNat m = ofNat n) : m = n := by
  rw [← toNat_ofNat m, h, toNat_ofNat]

theorem isDigit_of_mem_ofNat {n : Nat} {c : Char} (h : c ∈ ofNat n) : c.isDigit :=
  Nat.isDigit_of_mem_toDigits (by decide) (by decide) h

def le : Text → Text → Bool
  | [], _ => true
  | _ :: _, [] => false
  | a :: as, b :: bs => if a = b then le as bs else a.toNat < b.toNat

def inRanges (ranges : List (Nat × Nat)) (code : Nat) : Bool :=
  ranges.any fun (first, last) => first ≤ code && code ≤ last

/-- The parts of a text between the separators; one more than there are separators. -/
def split (separator : Char) : Text → List Text
  | [] => [[]]
  | c :: rest =>
    if c = separator then [] :: split separator rest
    else
      match split separator rest with
      | [] => [[c]]
      | part :: parts => (c :: part) :: parts

def join (separator : Text) : List Text → Text
  | [] => []
  | [part] => part
  | part :: parts => part ++ separator ++ join separator parts

def partition (separator : Char) (text : Text) : Text × Text :=
  (text.takeWhile (· != separator), (text.dropWhile (· != separator)).drop 1)

def replace (old new : Char) (text : Text) : Text := text.map fun c => if c = old then new else c

/-- A text cut after its first `limit` characters, the cut shown by three dots. -/
def ellipsis (limit : Nat) (text : Text) : Text :=
  if text.length ≤ limit then text else text.take limit ++ "..."

theorem replace_append (old new : Char) (first last : Text) :
    replace old new (first ++ last) = replace old new first ++ replace old new last :=
  List.map_append

theorem replace_eq_self {old : Char} {text : Text} (h : old ∉ text) (new : Char) :
    replace old new text = text := by
  induction text with
  | nil => rfl
  | cons c rest ih =>
    obtain ⟨hc, hrest⟩ := not_or.1 (mt List.mem_cons.2 h)
    have htail : replace old new rest = rest := ih hrest
    simpa [replace, Ne.symm hc] using htail

theorem not_mem_replace {old new : Char} (h : old ≠ new) (text : Text) :
    old ∉ replace old new text := by
  intro hmem
  obtain ⟨c, -, hc⟩ := List.mem_map.1 hmem
  split at hc
  · exact h hc.symm
  · next hne => exact hne hc

/-- Replacing does not make a text that holds neither of the two characters. -/
theorem replace_eq_iff {old new : Char} {text target : Text} (hold : old ∉ target)
    (hnew : new ∉ target) : replace old new text = target ↔ text = target := by
  constructor
  · rintro rfl
    have hmem : old ∉ text := by
      intro hmem
      exact hnew (List.mem_map.2 ⟨old, hmem, if_pos rfl⟩)
    exact (replace_eq_self hmem new).symm
  · rintro rfl
    exact replace_eq_self hold new

/-- A text is cut at the first separator. -/
theorem partition_append {separator : Char} {first : Text} (h : separator ∉ first) (rest : Text) :
    partition separator (first ++ separator :: rest) = (first, rest) := by
  have hfirst : ∀ c ∈ first, (c != separator) = true := by
    intro c hc
    rw [bne_iff_ne]
    rintro rfl
    exact h hc
  simp [partition, List.takeWhile_append_of_pos hfirst, List.dropWhile_append_of_pos hfirst]

/-- What is joined begins with its first part; each other part stands behind a separator. -/
theorem join_cons (separator part : Text) (parts : List Text) :
    join separator (part :: parts) = part ++ parts.flatMap (separator ++ ·) := by
  induction parts generalizing part with
  | nil => simp [join]
  | cons next parts ih => simp [join, ih]

theorem split_ne_nil (separator : Char) (text : Text) : split separator text ≠ [] := by
  cases text with
  | nil => simp [split]
  | cons c rest =>
    simp only [split]
    split
    · simp
    · split <;> simp

theorem length_split (separator : Char) (text : Text) :
    (split separator text).length = text.count separator + 1 := by
  induction text with
  | nil => rfl
  | cons c rest ih =>
    by_cases h : c = separator
    · simp [split, h, ih]
    · have hne := split_ne_nil separator rest
      cases hs : split separator rest with
      | nil => exact absurd hs hne
      | cons part parts =>
        simp only [hs, List.length_cons] at ih
        simp [split, h, hs, ih]

theorem split_of_not_mem {separator : Char} {text : Text} (h : separator ∉ text) :
    split separator text = [text] := by
  induction text with
  | nil => rfl
  | cons c rest ih =>
    obtain ⟨hc, hrest⟩ := not_or.1 (mt List.mem_cons.2 h)
    simp [split, Ne.symm hc, ih hrest]

theorem split_append {separator : Char} {part : Text} (h : separator ∉ part) (rest : Text) :
    split separator (part ++ separator :: rest) = part :: split separator rest := by
  induction part with
  | nil => simp [split]
  | cons c part ih =>
    obtain ⟨hc, hpart⟩ := not_or.1 (mt List.mem_cons.2 h)
    simp [split, Ne.symm hc, ih hpart]

theorem split_join {separator : Char} {parts : List Text} (hne : parts ≠ [])
    (h : ∀ part ∈ parts, separator ∉ part) : split separator (join [separator] parts) = parts := by
  induction parts with
  | nil => exact absurd rfl hne
  | cons part parts ih =>
    have hpart : separator ∉ part := h part List.mem_cons_self
    cases parts with
    | nil => exact split_of_not_mem hpart
    | cons next parts =>
      have hjoin : join [separator] (part :: next :: parts) =
          part ++ separator :: join [separator] (next :: parts) := by
        simp [join]
      rw [hjoin, split_append hpart, ih (by simp) fun p hp => h p (List.mem_cons_of_mem _ hp)]

/-- A text is its parts with separators between them. -/
theorem exists_join_eq (separator : Char) (text : Text) :
    ∃ parts, parts ≠ [] ∧ (∀ part ∈ parts, separator ∉ part) ∧ join [separator] parts = text := by
  induction text with
  | nil => exact ⟨[[]], by simp, by simp, rfl⟩
  | cons c rest ih =>
    obtain ⟨parts, hne, hparts, rfl⟩ := ih
    obtain ⟨part, parts, rfl⟩ := List.exists_cons_of_ne_nil hne
    obtain ⟨hpart, hrest⟩ := List.forall_mem_cons.1 hparts
    by_cases h : c = separator
    · subst h
      refine ⟨[] :: part :: parts, by simp, ?_, by simp [join]⟩
      exact List.forall_mem_cons.2 ⟨by simp, hparts⟩
    · refine ⟨(c :: part) :: parts, by simp, ?_, by simp [join_cons]⟩
      refine List.forall_mem_cons.2 ⟨?_, hrest⟩
      rw [List.mem_cons, not_or]
      exact ⟨Ne.symm h, hpart⟩

theorem join_append {separator : Text} {parts others : List Text} (hparts : parts ≠ [])
    (hothers : others ≠ []) :
    join separator (parts ++ others) = join separator parts ++ separator ++ join separator others := by
  obtain ⟨part, parts, rfl⟩ := List.exists_cons_of_ne_nil hparts
  obtain ⟨other, others, rfl⟩ := List.exists_cons_of_ne_nil hothers
  simp [join_cons]

/-- A text behind a separator adds its own parts. -/
theorem split_append_split (separator : Char) (text other : Text) :
    split separator (text ++ separator :: other) = split separator text ++ split separator other := by
  obtain ⟨parts, hne, hparts, rfl⟩ := exists_join_eq separator text
  obtain ⟨others, hne', hothers, rfl⟩ := exists_join_eq separator other
  have hjoin : join [separator] parts ++ separator :: join [separator] others =
      join [separator] (parts ++ others) := by
    rw [join_append hne hne', List.append_assoc, List.singleton_append]
  rw [hjoin, split_join hne hparts, split_join hne' hothers]
  exact split_join (by simp [hne]) (List.forall_mem_append.2 ⟨hparts, hothers⟩)

end Text
end Phrasebook
