import Phrasebook.Proofs.Message.Reading
import Phrasebook.Proofs.Text.Excerpt

/-!
What a report tells of a message when its contents are hidden. The content of an error is not
shown, but its sentence cites the same segment. The report therefore tells the beginning of each
malformed segment, as far as a citation goes, and nothing of what is behind.
-/
namespace Phrasebook

namespace Report

structure Error.Alike (a b : Error) : Prop where
  code : a.code = b.code
  column : a.column = b.column
  segment : a.segment = b.segment

def Error.Cites (error : Error) : Prop :=
  error.message = Diagnostic.cite error.content ++ " is not a valid interval"

/-- Errors whose contents are the same as far as a citation goes. -/
def Error.CitedAlike (a b : Error) : Prop := a.content.AgreeUpTo 80 b.content

def Error.hiddenLine (error : Error) : Text := "  " ++ error.text ⟨true, true⟩

theorem Error.Alike.location {a b : Error} (h : a.Alike b) : a.location = b.location := by
  simp only [Error.location, h.segment, h.column]

theorem Error.hiddenLine_eq (error : Error) :
    error.hiddenLine = "  [" ++ error.code ++ "]" ++ error.location ++ ": " ++
      (error.message ++ " (content: '[content redacted]')") := by
  have hshown : (Discretion.shown ⟨true, true⟩ error.content).quoted = "'[content redacted]'" := rfl
  unfold hiddenLine Error.text
  rw [hshown]
  simp

/-- The line for an error cites the content between what its kind and its place give. -/
theorem Error.Cites.hiddenLine_eq {error : Error} (h : error.Cites) :
    error.hiddenLine = "  [" ++ error.code ++ "]" ++ error.location ++ ": " ++
      ((error.content.ellipsis 80).quoted ++
        " is not a valid interval (content: '[content redacted]')") := by
  rw [Error.hiddenLine_eq, h, Diagnostic.cite]
  simp

/-- Lines with hidden contents differ where the citations in their sentences do. -/
theorem hiddenLines_eq_iff {as bs : List Error} (hlike : List.Forall₂ Error.Alike as bs)
    (has : ∀ a ∈ as, a.Cites) (hbs : ∀ b ∈ bs, b.Cites) (separator : Text) :
    as.flatMap (separator ++ ·.hiddenLine) = bs.flatMap (separator ++ ·.hiddenLine) ↔
      List.Forall₂ Error.CitedAlike as bs := by
  induction hlike with
  | nil => simp
  | @cons a b as bs h _ ih =>
    obtain ⟨ha, has⟩ := List.forall_mem_cons.1 has
    obtain ⟨hb, hbs⟩ := List.forall_mem_cons.1 hbs
    rw [List.forall₂_cons, ← ih has hbs, Error.CitedAlike, ← Text.ellipsis_eq_iff]
    simp only [List.flatMap_cons, ha.hiddenLine_eq, hb.hiddenLine_eq, h.code, h.location,
      List.append_assoc, List.append_cancel_left_eq]
    constructor
    · intro hlines
      obtain ⟨hcontent, hrest⟩ := Text.quoted_append_inj hlines
      exact ⟨hcontent, List.append_cancel_left hrest⟩
    · rintro ⟨hcontent, hrest⟩
      rw [hcontent, hrest]

/-- A report with errors is a heading, their lines, and the lines there are without them. -/
theorem text_of_errors {errors : List Error} (h : errors ≠ []) (warnings : List Warning)
    (withWarnings : Bool) :
    text ⟨errors, warnings⟩ ⟨true, true⟩ withWarnings =
      ("Errors (" ++ Text.ofNat errors.length ++ "):" : Text) ++
        (errors.flatMap (("\n" : Text) ++ ·.hiddenLine) ++
          (lines ⟨[], warnings⟩ ⟨true, true⟩ withWarnings).flatMap (("\n" : Text) ++ ·)) := by
  have hlines : lines ⟨errors, warnings⟩ ⟨true, true⟩ withWarnings =
      ("Errors (" ++ Text.ofNat errors.length ++ "):") ::
        (errors.map Error.hiddenLine ++ lines ⟨[], warnings⟩ ⟨true, true⟩ withWarnings) := by
    simp only [lines, if_neg h, if_pos, List.nil_append, List.cons_append]
    rfl
  rw [text, hlines, if_neg (List.cons_ne_nil _ _), Text.join_cons, List.flatMap_append,
    List.flatMap_map]

/-- Reports with the same warnings, and errors of the same kinds at the same places, are the same
with hidden contents if and only if the contents agree as far as a citation goes. -/
theorem hidden_text_eq_iff {a b : Report} (hwarnings : a.warnings = b.warnings)
    (hlike : List.Forall₂ Error.Alike a.errors b.errors) (ha : ∀ error ∈ a.errors, error.Cites)
    (hb : ∀ error ∈ b.errors, error.Cites) (withWarnings : Bool) :
    a.text ⟨true, true⟩ withWarnings = b.text ⟨true, true⟩ withWarnings ↔
      List.Forall₂ Error.CitedAlike a.errors b.errors := by
  obtain ⟨as, warnings⟩ := a
  obtain ⟨bs, _⟩ := b
  subst hwarnings
  by_cases hnone : as = []
  · subst hnone
    obtain rfl := List.forall₂_nil_left_iff.1 hlike
    exact ⟨fun _ => .nil, fun _ => rfl⟩
  · have hsome : bs ≠ [] := by
      rintro rfl
      exact hnone (List.forall₂_nil_right_iff.1 hlike)
    rw [text_of_errors hnone, text_of_errors hsome, hlike.length_eq, List.append_cancel_left_eq,
      List.append_cancel_right_eq, hiddenLines_eq_iff hlike ha hb]

end Report

namespace Message

theorem cites_of_mem_reviewErrors {text : Text} {error : Report.Error}
    (h : error ∈ reviewErrors text) : error.Cites := by
  obtain ⟨index, segment, fault, -, -, rfl⟩ := mem_reviewErrors_iff.1 h
  rfl

/-- The report on a message tells the malformed segments as far as a citation goes, although their
contents are hidden. -/
theorem hidden_review_eq_iff {text language other otherLanguage : Text}
    (hwarnings : (review text language).warnings = (review other otherLanguage).warnings)
    (herrors : List.Forall₂ Report.Error.Alike (review text language).errors
      (review other otherLanguage).errors) (withWarnings : Bool) :
    (review text language).text ⟨true, true⟩ withWarnings =
        (review other otherLanguage).text ⟨true, true⟩ withWarnings ↔
      List.Forall₂ Report.Error.CitedAlike (review text language).errors
        (review other otherLanguage).errors :=
  Report.hidden_text_eq_iff hwarnings herrors (fun _ => cites_of_mem_reviewErrors)
    (fun _ => cites_of_mem_reviewErrors) withWarnings

theorem review_of_malformed {text : Text} {fault : Interval.Malformed} (hbar : '|' ∉ text)
    (hscan : Interval.scan text.trim = .error fault) (language : Text) :
    review text language = ⟨[malformedError fault 0], []⟩ := by
  have hsegments : segments text = [text.trim] := by
    rw [segments, Text.split_of_not_mem hbar]
    rfl
  have hscans : scans text = [.error fault] := by
    rw [scans, hsegments, ← hscan]
    rfl
  have hduplicates : duplicateWarnings [] [] = [] := rfl
  simp [review, reviewErrors, writtenIntervals, formCountWarnings, standardCount, hscans,
    hsegments, hduplicates]

theorem alike_malformedError (text other : Text) (position segment : Nat) :
    (malformedError ⟨text, position⟩ segment).Alike (malformedError ⟨other, position⟩ segment) :=
  ⟨rfl, rfl, rfl⟩

def longSegment (last : Char) : Text := "[1," ++ (List.replicate 80 'x' ++ [last])

theorem review_longSegment (last : Char) (h : last = 'a' ∨ last = 'b') :
    review (longSegment last) "en" = ⟨[malformedError ⟨longSegment last, 3⟩ 0], []⟩ := by
  refine review_of_malformed ?_ ?_ "en"
  all_goals rcases h with rfl | rfl <;> decide +kernel

theorem review_apple : review "[1,apple" "en" = ⟨[malformedError ⟨"[1,apple", 3⟩ 0], []⟩ :=
  review_of_malformed (by decide) (by decide +kernel) "en"

theorem review_melon : review "[1,melon" "en" = ⟨[malformedError ⟨"[1,melon", 3⟩ 0], []⟩ :=
  review_of_malformed (by decide) (by decide +kernel) "en"

theorem hidden_review_eq_iff_long :
    (review (longSegment 'a') "en").text ⟨true, true⟩ true =
        (review (longSegment 'b') "en").text ⟨true, true⟩ true ∧
      (review "[1,apple" "en").text ⟨true, true⟩ true ≠
        (review "[1,melon" "en").text ⟨true, true⟩ true := by
  have ha := review_longSegment 'a' (Or.inl rfl)
  have hb := review_longSegment 'b' (Or.inr rfl)
  constructor
  · refine (hidden_review_eq_iff ?_ ?_ true).2 ?_
    all_goals simp only [ha, hb]
    · exact .cons (alike_malformedError _ _ _ _) .nil
    · exact .cons (Or.inr ⟨by decide, by decide, rfl⟩) .nil
  · intro hsame
    have hcontents := (hidden_review_eq_iff ?_ ?_ true).1 hsame
    all_goals simp only [review_apple, review_melon] at *
    · obtain ⟨hcontent, -⟩ := List.forall₂_cons.1 hcontents
      have hdiffer : ¬ Text.AgreeUpTo 80 "[1,apple" "[1,melon" := by decide
      exact hdiffer hcontent
    · exact .cons (alike_malformedError _ _ _ _) .nil

/-- A report with hidden contents shows them nevertheless, in the sentences of its errors. -/
theorem hidden_review_shows_segment :
    (review "[1,apple" "en").warnings = (review "[1,melon" "en").warnings ∧
      List.Forall₂ Report.Error.Alike (review "[1,apple" "en").errors
        (review "[1,melon" "en").errors ∧
      (review "[1,apple" "en").text ⟨true, true⟩ true =
        "Errors (1):\n  [INVALID_INTERVAL] at segment 0, column 4: '[1,apple' is not a valid interval (content: '[content redacted]')" ∧
      (review "[1,melon" "en").text ⟨true, true⟩ true =
        "Errors (1):\n  [INVALID_INTERVAL] at segment 0, column 4: '[1,melon' is not a valid interval (content: '[content redacted]')" := by
  simp only [review_apple, review_melon]
  refine ⟨trivial, .cons (alike_malformedError _ _ _ _) .nil, ?_, ?_⟩
  all_goals decide +kernel

end Message
end Phrasebook
