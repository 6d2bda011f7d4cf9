import Phrasebook.Diagnostic.Rendering
import Phrasebook.Proofs.Text.Excerpt

/-!
What a sanitized rendering tells of a diagnostic. A note is cut wherever it is shown, and so is the
sentence in a line and in a JSON object. A report has the whole sentence, so it tells apart
whatever sentences are different, how far behind the limit they may be.
-/
namespace Phrasebook

/-- Diagnostics that are the same but for what their texts say behind a limit. -/
structure Diagnostic.AgreeUpTo (limit : Nat) (a b : Diagnostic) : Prop where
  code : a.code = b.code
  severity : a.severity = b.severity
  span : a.span = b.span
  message : Text.AgreeUpTo limit a.message b.message
  key : Option.Rel (Text.AgreeUpTo limit) a.key b.key
  language : Option.Rel (Text.AgreeUpTo limit) a.language b.language
  hint : Option.Rel (Text.AgreeUpTo limit) a.hint b.hint

namespace Rendering

variable {rendering : Rendering} {limit : Nat}

def clipNote (rendering : Rendering) (note : Note) : Note :=
  ⟨note.label, rendering.clip note.text⟩

section Sanitized

variable (hsanitize : rendering.sanitize) (hlimit : rendering.limit = limit)

include hsanitize hlimit

theorem clip_eq_ellipsis (text : Text) : rendering.clip text = text.ellipsis limit := by
  unfold clip Text.ellipsis
  rw [hsanitize, hlimit]
  by_cases h : text.length ≤ limit
  · simp [h]
  · have hposition : position text.length limit = limit := position_natCast (by omega)
    simp [h, hposition]

theorem clip_eq_iff {a b : Text} : rendering.clip a = rendering.clip b ↔ a.AgreeUpTo limit b := by
  rw [clip_eq_ellipsis hsanitize hlimit, clip_eq_ellipsis hsanitize hlimit, Text.ellipsis_eq_iff]

theorem clipNote_note? {a b : Option Text} (label : Text)
    (h : Option.Rel (Text.AgreeUpTo limit) a b) :
    (Diagnostic.note? label a).map rendering.clipNote =
      (Diagnostic.note? label b).map rendering.clipNote := by
  cases h with
  | none => rfl
  | @some a b hagree =>
    by_cases hempty : a = []
    · rcases hagree with rfl | ⟨hlonger, -⟩
      · rfl
      · simp [hempty] at hlonger
    · have hother : b ≠ [] := by
        rcases hagree with rfl | ⟨-, hlonger, -⟩
        · exact hempty
        · rintro rfl
          simp at hlonger
      have hclip := (clip_eq_iff hsanitize hlimit).2 hagree
      simp [Diagnostic.note?, hempty, hother, clipNote, hclip]

theorem clipNote_notes {a b : Diagnostic} (h : a.AgreeUpTo limit b) :
    a.notes.map rendering.clipNote = b.notes.map rendering.clipNote := by
  have hkey := clipNote_note? hsanitize hlimit "key" h.key
  have hlanguage := clipNote_note? hsanitize hlimit "language" h.language
  have hhint := clipNote_note? hsanitize hlimit "help" h.hint
  have hpresent : ∀ notes : List (Option Note), (notes.filterMap id).map rendering.clipNote =
      (notes.map (Option.map rendering.clipNote)).filterMap id := by
    intro notes
    rw [List.map_filterMap, List.filterMap_map]
    rfl
  simp only [Diagnostic.notes, hpresent, List.map_cons, List.map_nil, hkey, hlanguage, hhint]

/-- The lines of a report but the first. -/
theorem tail_reportLines {a b : Diagnostic} (h : a.AgreeUpTo limit b) :
    (rendering.reportLines a).tail = (rendering.reportLines b).tail := by
  have hnotes := congrArg
    (List.map fun note => ("  = " : Text) ++ note.label ++ ": " ++ note.text)
    (clipNote_notes hsanitize hlimit h)
  rw [List.map_map, List.map_map] at hnotes
  simp only [reportLines, List.cons_append, List.tail_cons, h.span]
  exact congrArg _ hnotes

theorem jsonFields_eq {a b : Diagnostic} (h : a.AgreeUpTo limit b) :
    rendering.jsonFields a = rendering.jsonFields b := by
  have hnotes := congrArg
    (List.map fun note => JsonField.text (jsonLabel note.label) note.text)
    (clipNote_notes hsanitize hlimit h)
  rw [List.map_map, List.map_map] at hnotes
  have hmessage := (clip_eq_iff hsanitize hlimit).2 h.message
  simp only [jsonFields, h.code, h.severity, h.span, hmessage]
  exact congrArg _ hnotes

/-- A report shows its first line, the sentence and all, and the other lines. -/
theorem report_eq_iff {a b : Diagnostic} (h : a.AgreeUpTo limit b) :
    Text.join "\n" (rendering.reportLines a) = Text.join "\n" (rendering.reportLines b) ↔
      a.message = b.message := by
  have htail := tail_reportLines hsanitize hlimit h
  simp only [reportLines, List.cons_append, List.tail_cons] at htail
  simp only [reportLines, List.cons_append, Text.join_cons, htail, h.code, h.severity,
    List.append_cancel_right_eq, List.append_cancel_left_eq]

end Sanitized

/-- Diagnostics that agree as far as the limit are rendered the same, but for reports, which show
the whole sentence and so are the same if and only if the sentences are. -/
theorem render_eq_iff_of_agreeUpTo (hsanitize : rendering.sanitize)
    (hlimit : rendering.limit = limit) {a b : Diagnostic} (h : a.AgreeUpTo limit b) :
    rendering.render a = rendering.render b ↔
      (rendering.style = .report → a.message = b.message) := by
  cases hstyle : rendering.style with
  | report =>
    have hrender : ∀ diagnostic, rendering.render diagnostic =
        Text.join "\n" (rendering.reportLines diagnostic) := by
      intro diagnostic
      rw [render, hstyle]
    rw [hrender, hrender, report_eq_iff hsanitize hlimit h]
    exact ⟨fun hmessage _ => hmessage, fun hmessage => hmessage rfl⟩
  | line =>
    have hmessage := (clip_eq_iff hsanitize hlimit).2 h.message
    simp [render, hstyle, h.code, hmessage]
  | json => simp [render, hstyle, jsonFields_eq hsanitize hlimit h]

def hinted (message hint : Text) : Diagnostic :=
  { code := .invalidInterval, message, hint := some hint }

theorem agreeUpTo_hinted : (hinted "abcd" "vwxyz").AgreeUpTo 2 (hinted "abxy" "vw, no") :=
  ⟨rfl, rfl, rfl, by decide, .none, .none, .some (by decide)⟩

/-- JSON shows two letters of a sentence and of a hint; a report shows the whole sentence. -/
theorem render_eq_iff_of_agreeUpTo_hinted :
    render ⟨.json, true, 2⟩ (hinted "abcd" "vwxyz") =
      render ⟨.json, true, 2⟩ (hinted "abxy" "vw, no") ∧
    render ⟨.report, true, 2⟩ (hinted "abcd" "vwxyz") ≠
      render ⟨.report, true, 2⟩ (hinted "abxy" "vw, no") ∧
    render ⟨.report, true, 2⟩ (hinted "abcd" "vwxyz") =
      render ⟨.report, true, 2⟩ (hinted "abcd" "vw, no") := by
  have hsame : (hinted "abcd" "vwxyz").AgreeUpTo 2 (hinted "abcd" "vw, no") :=
    ⟨rfl, rfl, rfl, by decide, .none, .none, .some (by decide)⟩
  refine ⟨(render_eq_iff_of_agreeUpTo rfl rfl agreeUpTo_hinted).2 ?_, ?_,
    (render_eq_iff_of_agreeUpTo rfl rfl hsame).2 fun _ => rfl⟩
  · intro hstyle
    cases hstyle
  · intro hrender
    have hmessage := (render_eq_iff_of_agreeUpTo rfl rfl agreeUpTo_hinted).1 hrender rfl
    revert hmessage
    decide

/-- A sanitized report goes on behind the limit: it tells apart two sentences that the other
renderings cut to the same text. -/
theorem report_shows_behind_limit :
    (hinted "abcd" "vwxyz").AgreeUpTo 2 (hinted "abxy" "vw, no") ∧
      render ⟨.report, true, 2⟩ (hinted "abcd" "vwxyz") =
        "error[INVALID_INTERVAL]: abcd\n  = help: vw..." ∧
      render ⟨.report, true, 2⟩ (hinted "abxy" "vw, no") =
        "error[INVALID_INTERVAL]: abxy\n  = help: vw..." ∧
      render ⟨.line, true, 2⟩ (hinted "abcd" "vwxyz") = "INVALID_INTERVAL: ab..." ∧
      render ⟨.line, true, 2⟩ (hinted "abxy" "vw, no") = "INVALID_INTERVAL: ab..." := by
  exact ⟨agreeUpTo_hinted, rfl, rfl, rfl, rfl⟩

end Rendering
end Phrasebook
