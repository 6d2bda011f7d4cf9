import Phrasebook.Proofs.Message.Writing

/-!
Writing undoes reading. Every segment of a message that can be read is one of the forms in which
its clause is written, so that intervals, labels, white space and texts account for all characters
of the message. What is chosen for a count is therefore the end of a segment, as it is written.
-/
namespace Phrasebook

open Text

def Clause.display : Clause → Text
  | explicit _ text => text
  | standard text => text

namespace Clause.Form

def display : Clause.Form → Display
  | explicit _ _ display => display
  | labelled _ _ _ display => display
  | bare display _ _ => display

theorem display_clause (form : Clause.Form) : form.clause.display = form.display.text := by
  cases form <;> rfl

theorem display_suffix (form : Clause.Form) : form.display.text <:+ form.text := by
  cases form with
  | explicit interval gap display =>
    exact ⟨interval.text ++ gap.text, List.append_assoc ..⟩
  | labelled label _ gap display => exact ⟨[label, ':'] ++ gap.text, List.append_assoc ..⟩
  | bare display _ _ => exact List.suffix_refl _

end Clause.Form

/-- The end of a segment, without the white space in front of it. -/
def Display.ofSuffix {segment last : Text} (hbar : '|' ∉ segment) (htrim : trim segment = segment)
    (hsuffix : last <:+ segment) : Display where
  text := trimLeft last
  bar_not_mem := fun hmem => hbar (hsuffix.mem ((List.dropWhile_suffix isBlank).mem hmem))
  trimmed := trim_trimLeft_of_suffix htrim hsuffix

/-- A segment that can be read is a form of its clause, one case for each way of writing it. -/
theorem Clause.exists_form_of_read {segment : Text} {clause : Clause} (hbar : '|' ∉ segment)
    (htrim : trim segment = segment) (h : Clause.read segment = .ok clause) :
    ∃ form : Clause.Form, form.text = segment ∧ form.clause = clause := by
  rcases Clause.cases_of_read h with ⟨hscan, rfl⟩ | ⟨interval, cursor, hscan, rfl⟩
  · by_cases hlabel : ∃ c rest, segment = c :: ':' :: rest ∧ isWordChar c
    · obtain ⟨label, rest, rfl, hword⟩ := hlabel
      obtain ⟨gap, hgap⟩ := exists_gap rest
      have hsuffix : rest <:+ label :: ':' :: rest := List.suffix_append [label, ':'] rest
      refine ⟨.labelled label hword gap (.ofSuffix hbar htrim hsuffix), ?_, ?_⟩
      · exact congrArg (fun rest => label :: ':' :: rest) hgap.symm
      · rw [dropLabel_label hword]
        rfl
    · have hnone : ∀ c rest, segment = c :: ':' :: rest → isWordChar c = false := by
        intro c rest hsegment
        by_contra hword
        exact hlabel ⟨c, rest, hsegment, Bool.of_not_eq_false hword⟩
      refine ⟨.bare ⟨segment, hbar, htrim⟩ hscan hnone, rfl, ?_⟩
      rw [dropLabel_eq_self hnone]
      rfl
  · obtain ⟨before, form, rest, rfl⟩ := Interval.exists_derivation_of_scan hscan
    -- A trimmed segment has no white space before its interval.
    have hsegment : before.text ++ form.text ++ rest = form.text ++ rest := by
      have hstart := ((trim_eq_self_iff _).1 htrim).1
      have htrimmed := Interval.trimLeft_derivation before form rest
      rwa [trimLeft, dropWhile_of_startsWithout hstart] at htrimmed
    have hsuffix : rest <:+ before.text ++ form.text ++ rest := List.suffix_append _ rest
    rw [Interval.scan_derivation] at hscan
    obtain ⟨rfl, rfl⟩ := Prod.mk.inj (Option.some.inj (Except.ok.inj hscan))
    obtain ⟨gap, hgap⟩ := exists_gap rest
    refine ⟨.explicit form gap (.ofSuffix hbar htrim hsuffix), ?_, ?_⟩
    · exact (congrArg (form.text ++ ·) hgap.symm).trans hsegment.symm
    · rw [Interval.rest_derivation]
      rfl

namespace Message

/-- Parts that can be read are written forms in white space. -/
theorem exists_spaced_of_read {parts : List Text} {clauses : List Clause}
    (hbar : ∀ part ∈ parts, '|' ∉ part)
    (h : List.Forall₂ (fun part clause => Clause.read (trim part) = .ok clause) parts clauses) :
    ∃ forms : List (Spaced Clause.Form), forms.map (Spaced.text Clause.Form.text) = parts ∧
      forms.map (·.item.text) = parts.map trim ∧ forms.map (·.item.clause) = clauses := by
  induction h with
  | nil => exact ⟨[], rfl, rfl, rfl⟩
  | @cons part clause parts clauses hread _ ih =>
    obtain ⟨hpart, hparts⟩ := List.forall_mem_cons.1 hbar
    obtain ⟨forms, rfl, hsegments, rfl⟩ := ih hparts
    obtain ⟨before, after, htext⟩ := exists_gaps part
    have htrim : '|' ∉ trim part := by
      intro hmem
      rw [htext] at hpart
      exact hpart (by simp [hmem])
    obtain ⟨form, hform, rfl⟩ := Clause.exists_form_of_read htrim (trim_trim part) hread
    refine ⟨⟨before, form, after⟩ :: forms, ?_, ?_, rfl⟩
    · simp only [List.map_cons, Spaced.text, hform, ← htext]
    · simp only [List.map_cons, hform, hsegments]

/-- A message that can be read is written by clauses with white space around them, and they are
the clauses that are read. -/
theorem exists_write_of_read {text : Text} {message : Message} (h : read text = .ok message) :
    ∃ forms : List (Spaced Clause.Form), write forms = text ∧
      segments text = forms.map (·.item.text) ∧ message.clauses = forms.map (·.item.clause) := by
  obtain ⟨parts, hne, hbar, rfl⟩ := exists_join_eq '|' text
  have hclauses := forall₂_of_read h
  rw [segments, split_join hne hbar, List.forall₂_map_left_iff] at hclauses
  obtain ⟨forms, rfl, hsegments, hforms⟩ := exists_spaced_of_read hbar hclauses
  refine ⟨forms, rfl, ?_, hforms.symm⟩
  rw [segments, split_join hne hbar, ← hsegments]

/-- The text that is chosen is that of a clause. -/
theorem exists_clause_of_choose? {message : Message} {place : Point} {language : Text}
    {choice : Choice} (h : message.choose? place language = some choice) :
    ∃ clause ∈ message.clauses, clause.display = choice.text := by
  unfold choose? at h
  cases hfind : message.explicit.find? fun clause => clause.1.shape.contains place with
  | some found =>
    obtain ⟨interval, text⟩ := found
    simp only [hfind, Option.some.injEq] at h
    subst h
    obtain ⟨clause, hmem, hclause⟩ := List.mem_filterMap.1 (List.mem_of_find?_eq_some hfind)
    cases clause with
    | explicit interval' text' =>
      obtain ⟨rfl, rfl⟩ := Prod.mk.inj (Option.some.inj hclause)
      exact ⟨_, hmem, rfl⟩
    | standard text' => cases hclause
  | none =>
    simp only [hfind] at h
    cases hform : message.standard[(PluralFamily.ofLanguage language).index place]? with
    | some text =>
      simp only [hform, Option.some.injEq] at h
      subst h
      obtain ⟨clause, hmem, hclause⟩ := List.mem_filterMap.1 (List.mem_of_getElem? hform)
      cases clause with
      | explicit interval' text' => cases hclause
      | standard text' =>
        obtain rfl := Option.some.inj hclause
        exact ⟨_, hmem, rfl⟩
    | none =>
      simp only [hform] at h
      split at h
      · next only hclauses =>
        cases h
        exact ⟨.standard only, by simp [hclauses], rfl⟩
      · cases h

/-- What is chosen is the text of a clause. -/
theorem exists_clause_of_selectFrom {text language : Text} {message : Message} {count : Number}
    {choice : Choice} (h : read text = .ok message)
    (hselect : selectFrom text count language = .ok choice) :
    ∃ clause ∈ message.clauses, clause.display = choice.text := by
  simp only [selectFrom, h, select] at hselect
  split at hselect
  · cases hselect
  · split at hselect
    · cases hselect
    · split at hselect
      · next hchoice =>
        cases hselect
        exact exists_clause_of_choose? hchoice
      · cases hselect

/-- The clauses that are read account for the whole message: there is one for each segment, and
written in their forms they give back the segments and with white space the message itself. What is
selected is the end of a segment without white space around it. -/
theorem read_accounts_for_text {text : Text} {message : Message} (h : read text = .ok message) :
    message.clauses.length = text.count '|' + 1 ∧
    message.explicit.length + message.standard.length = message.clauses.length ∧
    (∃ forms : List (Spaced Clause.Form), write forms = text ∧
      segments text = forms.map (·.item.text) ∧
      message.clauses = forms.map (·.item.clause) ∧
      message.explicit = forms.filterMap (·.item.explicit?) ∧
      message.standard = forms.filterMap (·.item.standard?)) ∧
    ∀ count language choice, selectFrom text count language = .ok choice →
      '|' ∉ choice.text ∧ trim choice.text = choice.text ∧
        ∃ segment ∈ segments text, choice.text <:+ segment := by
  obtain ⟨forms, hwrite, hsegments, hclauses⟩ := exists_write_of_read h
  refine ⟨?_, length_explicit_add_length_standard message, ?_, ?_⟩
  · rw [length_clauses_of_read h, length_segments]
  · obtain ⟨source, clauses⟩ := message
    obtain rfl : clauses = forms.map (·.item.clause) := hclauses
    exact ⟨forms, hwrite, hsegments, rfl, explicit_clauses source forms,
      standard_clauses source forms⟩
  · intro count language choice hselect
    obtain ⟨clause, hmem, hdisplay⟩ := exists_clause_of_selectFrom h hselect
    rw [hclauses] at hmem
    obtain ⟨spaced, hspaced, rfl⟩ := List.mem_map.1 hmem
    rw [Clause.Form.display_clause] at hdisplay
    rw [← hdisplay]
    refine ⟨spaced.item.display.bar_not_mem, spaced.item.display.trimmed, spaced.item.text, ?_,
      spaced.item.display_suffix⟩
    rw [hsegments]
    exact List.mem_map_of_mem hspaced

theorem read_accounts_for_text_fruit :
    ∃ message, read "[0,0]  none | s: one|[beta] more" = .ok message ∧
      message.clauses.length = 3 ∧
      (∃ forms : List (Spaced Clause.Form),
        write forms = "[0,0]  none | s: one|[beta] more" ∧
        message.standard = forms.filterMap (·.item.standard?)) ∧
      ∃ choice, selectFrom "[0,0]  none | s: one|[beta] more" (.integer 1) "en_US" =
          .ok choice ∧
        choice.text = "one" ∧ trim choice.text = choice.text ∧
        ∃ segment ∈ segments "[0,0]  none | s: one|[beta] more", choice.text <:+ segment := by
  have hread : read "[0,0]  none | s: one|[beta] more" =
      .ok ⟨"[0,0]  none | s: one|[beta] more",
        [.explicit ⟨"[0,0]", .range (.ofScientific false 0 0) (.ofScientific false 0 0) true true⟩
            "none", .standard "one", .standard "[beta] more"]⟩ := rfl
  obtain ⟨hlength, -, ⟨forms, hwrite, -, -, -, hstandard⟩, hselect⟩ := read_accounts_for_text hread
  have hchoice : selectFrom "[0,0]  none | s: one|[beta] more" (.integer 1) "en_US" =
      .ok (.form 0 "one") := by decide +kernel
  obtain ⟨-, htrim, hsegment⟩ := hselect _ _ _ hchoice
  exact ⟨_, hread, hlength, ⟨forms, hwrite, hstandard⟩, _, hchoice, rfl, htrim, hsegment⟩

end Message
end Phrasebook
