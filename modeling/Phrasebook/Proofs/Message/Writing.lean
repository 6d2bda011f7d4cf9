import Phrasebook.Proofs.Interval.Scanning
import Phrasebook.Proofs.Message.Reading

/-!
How plural messages are written. An explicit clause is an interval and a text; a standard clause is
a text behind a label, or by itself if it looks neither like an interval nor like a text behind a
label. White space may stand around each clause, behind an interval and behind a label. Reading
gives back the clauses that were written, in their order, with their texts as they are.
-/
namespace Phrasebook

open Text

/-- The text of a clause. It holds no vertical bar and has no white space at its ends. -/
structure Display where
  text : Text
  bar_not_mem : '|' ∉ text
  trimmed : trim text = text

inductive Clause.Form
  | explicit (interval : Interval.Form) (gap : Gap) (text : Display)
  | labelled (label : Char) (isWord : isWordChar label) (gap : Gap) (text : Display)
  | bare (text : Display) (no_interval : Interval.scan text.text = .ok none)
      (no_label : ∀ c rest, text.text = c :: ':' :: rest → isWordChar c = false)

namespace Clause.Form

def text : Clause.Form → Text
  | explicit interval gap display => interval.text ++ (gap.text ++ display.text)
  | labelled label _ gap display => [label, ':'] ++ (gap.text ++ display.text)
  | bare display _ _ => display.text

def explicit? : Clause.Form → Option (Interval × Text)
  | explicit interval _ display => some (interval.interval, display.text)
  | labelled .. => none
  | bare .. => none

def standard? : Clause.Form → Option Text
  | explicit .. => none
  | labelled _ _ _ display => some display.text
  | bare display _ _ => some display.text

def clause : Clause.Form → Clause
  | explicit interval _ display => .explicit interval.interval display.text
  | labelled _ _ _ display => .standard display.text
  | bare display _ _ => .standard display.text

end Clause.Form

def Message.write (clauses : List (Spaced Clause.Form)) : Text :=
  join ['|'] (clauses.map (Spaced.text Clause.Form.text))

theorem isBlank_of_isWordChar {c : Char} (h : isWordChar c) : isBlank c = false :=
  isBlank_of_kind (by decide +kernel) h

/-- A text behind a label is no interval. -/
theorem scan_label {label : Char} (h : isWordChar label) (rest : Text) :
    Interval.scan (label :: rest) = .ok none := by
  have hbrace : label ≠ '\x7b' := ne_of_kind h (by decide)
  have hleft : label ≠ '[' := ne_of_kind h (by decide)
  have hright : label ≠ ']' := ne_of_kind h (by decide)
  have hshape : Interval.shapeAt (label :: rest) = .ok none := by
    simp [Interval.shapeAt, hbrace, hleft, hright]
  simp only [Interval.scan, trimLeft_eq_self (isBlank_of_isWordChar h), hshape]

theorem dropLabel_label {label : Char} (h : isWordChar label) (rest : Text) :
    dropLabel (label :: ':' :: rest) = trimLeft rest := by
  simp [dropLabel, h]

theorem dropLabel_eq_self {text : Text}
    (h : ∀ c rest, text = c :: ':' :: rest → isWordChar c = false) : dropLabel text = text := by
  unfold dropLabel
  split
  next c rest => simp [h c rest rfl]
  next => rfl

/-- A text behind white space is had back by trimming what surrounds it. -/
theorem Display.trimLeft_trimRight (gap : Gap) (display : Display) (after : Gap) :
    trimLeft (trimRight (gap.text ++ display.text ++ after.text)) = display.text := by
  rw [Text.trimLeft_trimRight, trim_spaced, display.trimmed]

/-- A segment is read as the clause that was written, one case for each way of writing it. -/
theorem Clause.Form.read_trim_text (spaced : Spaced Clause.Form) :
    Clause.read (trim (spaced.text Clause.Form.text)) = .ok spaced.item.clause := by
  obtain ⟨before, form, after⟩ := spaced
  simp only [Spaced.text]
  cases form with
  | explicit interval gap display =>
    obtain ⟨hne, hstart⟩ := interval.startsWithout_isBlank
    have htrim : trim (before.text ++ (text (.explicit interval gap display)) ++ after.text) =
        interval.text ++ trimRight (gap.text ++ display.text ++ after.text) := by
      rw [← trim_gap_append before hne hstart interval.trimRight_text]
      simp [text]
    have hscan := Interval.scan_derivation .empty interval
      (trimRight (gap.text ++ display.text ++ after.text))
    have hrest := Interval.rest_derivation .empty interval
      (trimRight (gap.text ++ display.text ++ after.text))
    rw [Gap.empty, List.nil_append] at hscan hrest
    simp only [htrim, Clause.read, hscan, hrest, display.trimLeft_trimRight, clause]
  | labelled label isWord gap display =>
    have htrim : trim (before.text ++ (text (.labelled label isWord gap display)) ++ after.text) =
        label :: ':' :: trimRight (gap.text ++ display.text ++ after.text) := by
      have hstart : StartsWithout isBlank [label, ':'] := by
        rw [startsWithout_cons]
        exact isBlank_of_isWordChar isWord
      have hend : trimRight [label, ':'] = [label, ':'] := trimRight_concat [label] (by decide)
      have hvisible := trim_gap_append before (by simp) hstart hend
        (gap.text ++ display.text ++ after.text)
      simpa [text] using hvisible
    simp only [htrim, Clause.read, scan_label isWord, dropLabel_label isWord,
      display.trimLeft_trimRight, clause]
  | bare display hscan hlabel =>
    have htrim : trim (before.text ++ (text (.bare display hscan hlabel)) ++ after.text) =
        display.text := by
      rw [trim_spaced]
      exact display.trimmed
    simp only [htrim, Clause.read, hscan, dropLabel_eq_self hlabel, clause]

theorem bar_not_mem_gap (gap : Gap) : '|' ∉ gap.text := by
  intro hmem
  exact absurd (gap.blank '|' hmem) (by decide)

theorem Clause.Form.bar_not_mem (spaced : Spaced Clause.Form) :
    '|' ∉ spaced.text Clause.Form.text := by
  have hitem : '|' ∉ spaced.item.text := by
    cases spaced.item with
    | explicit interval gap display =>
      have hinterval : '|' ∉ interval.text := by
        intro hmem
        exact absurd (interval.isWritten_text '|' hmem) (by decide)
      simp [text, hinterval, bar_not_mem_gap, display.bar_not_mem]
    | labelled label isWord gap display =>
      have hlabel : '|' ≠ label := (ne_of_kind isWord (by decide)).symm
      simp [text, hlabel, bar_not_mem_gap, display.bar_not_mem]
    | bare display _ _ => exact display.bar_not_mem
  simp [Spaced.text, bar_not_mem_gap, hitem]

namespace Message

theorem split_write {clauses : List (Spaced Clause.Form)} (h : clauses ≠ []) :
    split '|' (write clauses) = clauses.map (Spaced.text Clause.Form.text) := by
  have hparts : ∀ part ∈ clauses.map (Spaced.text Clause.Form.text), '|' ∉ part := by
    intro part hpart
    obtain ⟨spaced, -, rfl⟩ := List.mem_map.1 hpart
    exact Clause.Form.bar_not_mem spaced
  exact split_join (by simpa using h) hparts

theorem segments_write {clauses : List (Spaced Clause.Form)} (h : clauses ≠ []) :
    segments (write clauses) =
      clauses.map fun spaced => trim (spaced.text Clause.Form.text) := by
  rw [segments, split_write h, List.map_map]
  rfl

theorem read_write_eq {clauses : List (Spaced Clause.Form)} (h : clauses ≠ []) :
    read (write clauses) = .ok ⟨write clauses, clauses.map (·.item.clause)⟩ := by
  refine read_eq_ok_iff.2 ⟨rfl, ?_⟩
  rw [segments_write h, List.forall₂_map_left_iff, List.forall₂_map_right_iff, List.forall₂_same]
  intro spaced _
  exact Clause.Form.read_trim_text spaced

theorem explicit_clauses (source : Text) (clauses : List (Spaced Clause.Form)) :
    (Message.mk source (clauses.map (·.item.clause))).explicit =
      clauses.filterMap (·.item.explicit?) := by
  rw [explicit, List.filterMap_map]
  congr 1
  funext spaced
  obtain ⟨before, form, after⟩ := spaced
  cases form <;> rfl

theorem standard_clauses (source : Text) (clauses : List (Spaced Clause.Form)) :
    (Message.mk source (clauses.map (·.item.clause))).standard =
      clauses.filterMap (·.item.standard?) := by
  rw [standard, List.filterMap_map]
  congr 1
  funext spaced
  obtain ⟨before, form, after⟩ := spaced
  cases form <;> rfl

/-- Reading undoes writing: the explicit clauses have the intervals and the texts that were
written, the standard ones have their texts without the labels, and none is lost or added. -/
theorem read_write (clauses : List (Spaced Clause.Form)) (h : clauses ≠ []) :
    ∃ message, read (write clauses) = .ok message ∧ message.source = write clauses ∧
      message.explicit = clauses.filterMap (·.item.explicit?) ∧
      message.standard = clauses.filterMap (·.item.standard?) ∧
      message.clauses = clauses.map (·.item.clause) ∧
      message.clauses.length = clauses.length := by
  refine ⟨_, read_write_eq h, rfl, ?_, ?_, rfl, List.length_map ..⟩
  · exact explicit_clauses _ clauses
  · exact standard_clauses _ clauses

def mixedClauses : List (Spaced Clause.Form) :=
  let newline : Gap := ⟨"\n", List.all_eq_true.1 rfl⟩
  let tab : Gap := ⟨" \t", List.all_eq_true.1 rfl⟩
  [⟨.space, .explicit Interval.belowTwoAndAHalf .empty ⟨"s: few [1]", by decide, by decide⟩,
      newline⟩,
    ⟨.empty, .labelled 's' (by decide) tab ⟨"\x7b0\x7d p:x", by decide, by decide⟩, .empty⟩,
    ⟨.space, .labelled '1' (by decide) .empty ⟨"", by decide, by decide⟩, .empty⟩,
    ⟨.space, .bare ⟨"[beta] x:y", by decide, by decide⟩ rfl (by simp), .empty⟩]

theorem read_write_mixed :
    mixedClauses ≠ [] ∧
      ∃ message,
        read " [-Inf ,\t2.50[s: few [1]\n|s: \t\x7b0\x7d p:x| 1:| [beta] x:y" = .ok message ∧
        message.explicit = [(Interval.belowTwoAndAHalf.interval, ("s: few [1]" : Text))] ∧
        message.standard = ["\x7b0\x7d p:x", "", "[beta] x:y"] ∧
        message.clauses.length = 4 := by
  have hne : mixedClauses ≠ [] := by simp [mixedClauses]
  obtain ⟨message, hread, -, hexplicit, hstandard, -, hlength⟩ := read_write mixedClauses hne
  exact ⟨hne, message, hread, hexplicit, hstandard, hlength⟩

end Message
end Phrasebook
