import Mathlib.Data.Set.List
import Phrasebook.Proofs.Interval.Spelling
import Phrasebook.Proofs.Message.Recovering

/-!
What a review says of intervals that are declared more than once. It goes by how an interval is
written, white space apart. So of the clauses with the same interval, one is reported if and only if
an earlier one spells the numbers in the same way; one that spells them otherwise is not.
-/
namespace Phrasebook.Message

open Text

def duplicates (text language : Text) : List Report.Warning :=
  (review text language).warnings.filter (·.code = DiagnosticCode.duplicateInterval.name)

def repeatWarning (source : Text) : Report.Warning :=
  warningOf (.duplicateInterval source) (some (squeeze source))

section Warnings

variable {seen : List Text} {source : Text}

theorem duplicateWarnings_cons_seen (h : squeeze source ∈ seen) (rest : List Text) :
    duplicateWarnings seen (source :: rest) =
      repeatWarning source :: duplicateWarnings seen rest :=
  if_pos h

theorem duplicateWarnings_cons_new (h : squeeze source ∉ seen) (rest : List Text) :
    duplicateWarnings seen (source :: rest) = duplicateWarnings (squeeze source :: seen) rest :=
  if_neg h

theorem code_of_mem_duplicateWarnings {sources : List Text} :
    ∀ warning ∈ duplicateWarnings seen sources,
      warning.code = DiagnosticCode.duplicateInterval.name := by
  induction sources generalizing seen with
  | nil => exact List.forall_mem_nil _
  | cons source rest ih =>
    by_cases h : squeeze source ∈ seen
    · rw [duplicateWarnings_cons_seen h, List.forall_mem_cons]
      exact ⟨rfl, ih⟩
    · rw [duplicateWarnings_cons_new h]
      exact ih

theorem code_of_mem_formCountWarnings {text language : Text} :
    ∀ warning ∈ formCountWarnings text language,
      warning.code ≠ DiagnosticCode.duplicateInterval.name := by
  intro warning hwarning
  unfold formCountWarnings at hwarning
  dsimp only at hwarning
  split at hwarning
  · obtain rfl := List.mem_singleton.1 hwarning
    exact (by decide : DiagnosticCode.pluralFormCountMismatch.name ≠
      DiagnosticCode.duplicateInterval.name)
  · cases hwarning

theorem duplicates_eq (text language : Text) :
    duplicates text language = duplicateWarnings [] (writtenIntervals text) := by
  have hkept : (duplicateWarnings [] (writtenIntervals text)).filter
      (·.code = DiagnosticCode.duplicateInterval.name) =
      duplicateWarnings [] (writtenIntervals text) :=
    List.filter_eq_self.2 fun warning hwarning =>
      decide_eq_true (code_of_mem_duplicateWarnings warning hwarning)
  have hnone : (formCountWarnings text language).filter
      (·.code = DiagnosticCode.duplicateInterval.name) = [] :=
    List.filter_eq_nil_iff.2 fun warning hwarning => by
      simpa using code_of_mem_formCountWarnings warning hwarning
  rw [duplicates, review, List.filter_append, hkept, hnone, List.append_nil]

/-- An interval is reported if an earlier one is written like it. What was seen so far is what the
sources before have come to. -/
theorem duplicateWarnings_after (before : List Text)
    (hseen : ∀ key, key ∈ seen ↔ key ∈ before.map squeeze) (sources : List Text) :
    duplicateWarnings seen sources =
      (sources.zipIdx before.length).filterMap fun (source, place) =>
        if ∃ earlier ∈ (before ++ sources).take place, squeeze earlier = squeeze source then
          some (repeatWarning source)
        else none := by
  induction sources generalizing seen before with
  | nil => rfl
  | cons source rest ih =>
    have htake : (before ++ source :: rest).take before.length = before := List.take_left
    have hearlier : (∃ earlier ∈ before, squeeze earlier = squeeze source) ↔
        squeeze source ∈ seen := by
      rw [hseen, List.mem_map]
    have hrest : ∀ {later : List Text}, (∀ key, key ∈ later ↔ key = squeeze source ∨ key ∈ seen) →
        duplicateWarnings later rest =
          (rest.zipIdx (before.length + 1)).filterMap fun (other, place) =>
            if ∃ earlier ∈ (before ++ source :: rest).take place,
                squeeze earlier = squeeze other then
              some (repeatWarning other)
            else none := by
      intro later hlater
      have hmap : ∀ key, key ∈ later ↔ key ∈ (before ++ [source]).map squeeze := by
        intro key
        rw [hlater, hseen, List.map_append, List.mem_append, or_comm]
        simp
      have htail := ih (before ++ [source]) hmap
      rwa [List.length_append, List.append_assoc] at htail
    rw [List.zipIdx_cons, List.filterMap_cons]
    by_cases hmem : squeeze source ∈ seen
    · rw [duplicateWarnings_cons_seen hmem, hrest fun key => ?_]
      · simp only [htake, hearlier, if_pos hmem]
      · rw [or_iff_right_of_imp]
        rintro rfl
        exact hmem
    · rw [duplicateWarnings_cons_new hmem, hrest fun key => List.mem_cons]
      simp only [htake, hearlier, if_neg hmem]

/-- A source is warned of if an earlier one is the same without white space. -/
theorem duplicateWarnings_eq_filterMap (sources : List Text) :
    duplicateWarnings [] sources = sources.zipIdx.filterMap fun (source, place) =>
      if ∃ earlier ∈ sources.take place, squeeze earlier = squeeze source then
        some (repeatWarning source)
      else none :=
  duplicateWarnings_after [] (fun _ => Iff.rfl) sources

end Warnings

theorem writtenIntervals_of_read {text : Text} {message : Message} (h : read text = .ok message) :
    writtenIntervals text = message.explicit.map (·.1.source) := by
  have hclauses := forall₂_of_read h
  unfold explicit writtenIntervals scans
  generalize segments text = segments at hclauses
  generalize message.clauses = clauses at hclauses
  induction hclauses with
  | nil => rfl
  | cons hclause _ ih =>
    rcases Clause.cases_of_read hclause with ⟨hscan, rfl⟩ | ⟨interval, cursor, hscan, rfl⟩
    · simp [hscan, ih]
    · simp [hscan, ih]

theorem exists_form_of_mem_explicit {text : Text} {message : Message} (h : read text = .ok message)
    {clause : Interval × Text} (hmem : clause ∈ message.explicit) :
    ∃ form : Interval.Form, form.interval = clause.1 := by
  obtain ⟨forms, -, -, hclauses⟩ := exists_write_of_read h
  obtain ⟨found, hfound, hpick⟩ := List.mem_filterMap.1 hmem
  rw [hclauses] at hfound
  obtain ⟨⟨before, form, after⟩, -, rfl⟩ := List.mem_map.1 hfound
  cases form with
  | explicit interval gap display =>
    cases hpick
    exact ⟨interval, rfl⟩
  | labelled => cases hpick
  | bare => cases hpick

/-- The intervals of a message that was read, as they are written. -/
theorem exists_forms_of_read {text : Text} {message : Message} (h : read text = .ok message) :
    ∃ forms : List Interval.Form,
      message.explicit.map Prod.fst = forms.map Interval.Form.interval := by
  have hrange : message.explicit.map Prod.fst ∈ Set.range (List.map Interval.Form.interval) := by
    rw [Set.range_list_map]
    intro interval hinterval
    obtain ⟨clause, hclause, rfl⟩ := List.mem_map.1 hinterval
    exact exists_form_of_mem_explicit h hclause
  obtain ⟨forms, hforms⟩ := hrange
  exact ⟨forms, hforms.symm⟩

/-- The intervals are reported as they are written. -/
theorem writtenIntervals_of_forms {text : Text} {message : Message} (h : read text = .ok message)
    {forms : List Interval.Form}
    (hforms : message.explicit.map Prod.fst = forms.map Interval.Form.interval) :
    writtenIntervals text = forms.map Interval.Form.text := by
  have hsources := congrArg (List.map Interval.source) hforms
  rw [List.map_map, List.map_map] at hsources
  exact (writtenIntervals_of_read h).trans hsources

/-- The intervals of a message that can be read are written by forms, and a review in any language
reports, in their order, those of them that are like an earlier one: the same interval with its
numbers spelled in the same way. -/
theorem repeats_reported_iff_alike {text : Text} {message : Message} (h : read text = .ok message) :
    ∃ forms : List Interval.Form,
      message.explicit.map Prod.fst = forms.map Interval.Form.interval ∧
      ∀ language, duplicates text language = forms.zipIdx.filterMap fun (form, place) =>
        if ∃ earlier ∈ forms.take place, earlier.Alike form then some (repeatWarning form.text)
        else none := by
  obtain ⟨forms, hforms⟩ := exists_forms_of_read h
  refine ⟨forms, hforms, fun language => ?_⟩
  rw [duplicates_eq, writtenIntervals_of_forms h hforms, duplicateWarnings_eq_filterMap,
    List.zipIdx_map, List.filterMap_map]
  refine List.filterMap_congr ?_
  rintro ⟨form, place⟩ -
  have hearlier : (∃ earlier ∈ (forms.map Interval.Form.text).take place,
      squeeze earlier = squeeze form.text) ↔ ∃ earlier ∈ forms.take place, earlier.Alike form := by
    rw [← List.map_take]
    simp only [List.mem_map, exists_exists_and_eq_and, Interval.Form.squeeze_eq_iff]
  exact if_congr hearlier rfl rfl

theorem repeats_reported_iff_alike_gap :
    ∃ forms : List Interval.Form,
      forms.map Interval.Form.text = (["[1, 5]", "[1,5]", "[1.0,5]"] : List Text) ∧
      (∀ language, duplicates "[1, 5] a|[1,5] b|[1.0,5] c" language =
        forms.zipIdx.filterMap fun (form, place) =>
          if ∃ earlier ∈ forms.take place, earlier.Alike form then some (repeatWarning form.text)
          else none) ∧
      duplicates "[1, 5] a|[1,5] b|[1.0,5] c" "en_US" = [repeatWarning "[1,5]"] := by
  obtain ⟨message, hread⟩ : ∃ message, read "[1, 5] a|[1,5] b|[1.0,5] c" = .ok message := ⟨_, rfl⟩
  obtain ⟨forms, hforms, hreported⟩ := repeats_reported_iff_alike hread
  refine ⟨forms, ?_, hreported, ?_⟩
  · rw [← writtenIntervals_of_forms hread hforms]
    decide +kernel
  · rw [duplicates_eq]
    decide +kernel

/-- An interval with its first end spelled as a decimal is the same as before, and no review of the
message reports it. -/
theorem repeat_spelled_otherwise_unreported :
    (∃ first second : Interval,
      read "[1,2] a|[1.0,2] b" =
        .ok ⟨"[1,2] a|[1.0,2] b", [.explicit first "a", .explicit second "b"]⟩ ∧
      first.shape = second.shape) ∧
    ∀ language, (review "[1,2] a|[1.0,2] b" language).warnings = [] := by
  constructor
  · exact ⟨⟨"[1,2]", .range (.ofScientific false 1 0) (.ofScientific false 2 0) true true⟩,
      ⟨"[1.0,2]", .range (.ofScientific false 10 (-1)) (.ofScientific false 2 0) true true⟩, rfl,
      by decide +kernel⟩
  · intro language
    have hintervals : duplicateWarnings [] (writtenIntervals "[1,2] a|[1.0,2] b") = [] := by
      decide +kernel
    have hstandard : standardCount "[1,2] a|[1.0,2] b" = 0 := by decide +kernel
    have hcount : formCountWarnings "[1,2] a|[1.0,2] b" language = [] := by
      simp only [formCountWarnings, hstandard, ne_eq, not_true_eq_false, false_and, and_false,
        if_false]
    rw [review, hintervals, hcount, List.nil_append]

end Phrasebook.Message
