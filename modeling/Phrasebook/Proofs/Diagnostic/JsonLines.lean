import Mathlib.Data.List.Forall2
import Phrasebook.Diagnostic.Rendering
import Phrasebook.Proofs.Text.Excerpt
import Phrasebook.Proofs.Text.Spacing

/-!
Diagnostics as lines of JSON. A JSON object is a single line and can be read in one way only: every
member shows where it ends, whatever texts it holds. So the lines tell the objects, an object its
members, and the members, looked up by their names, the diagnostic. Only an optional text that is
empty is not told from one that is not there.
-/
namespace Phrasebook

open Text

/-- A numeral can be told from what is written behind it, unless that begins with a digit. -/
theorem Text.ofNat_append_inj {m n : Nat} {rest rest' : Text}
    (hrest : StartsWithout Char.isDigit rest) (hrest' : StartsWithout Char.isDigit rest')
    (h : Text.ofNat m ++ rest = Text.ofNat n ++ rest') : m = n ∧ rest = rest' := by
  obtain ⟨hdigits, htail⟩ := run_unique (fun _ => Text.isDigit_of_mem_ofNat)
    (fun _ => Text.isDigit_of_mem_ofNat) hrest hrest' h
  exact ⟨Text.ofNat_injective hdigits, htail⟩

/-- A string is not taken for a number. -/
theorem Text.jsonString_append_ne (text : Text) (n : Nat) (rest rest' : Text) :
    text.jsonString ++ rest ≠ Text.ofNat n ++ rest' := by
  obtain ⟨c, digits, hdigits⟩ := List.exists_cons_of_ne_nil (Nat.toDigits_ne_nil (n := n) (b := 10))
  have hdigit : c.isDigit := by
    apply Text.isDigit_of_mem_ofNat (n := n)
    rw [Text.ofNat, hdigits]
    exact List.mem_cons_self
  intro h
  rw [Text.ofNat, hdigits] at h
  have hhead : quotationMark = c := (List.cons.inj h).1
  rw [← hhead] at hdigit
  exact absurd hdigit (by decide)

namespace JsonField

theorem newline_not_mem_render (field : JsonField) : '\n' ∉ field.render := by
  have hnumber : ∀ n, '\n' ∉ Text.ofNat n := fun n hmem =>
    absurd (Text.isDigit_of_mem_ofNat hmem) (by decide)
  cases field with
  | text label content => simp [render, newline_not_mem_jsonString]
  | number label n => simp [render, newline_not_mem_jsonString, hnumber n]

theorem render_append_inj {field other : JsonField} {rest rest' : Text}
    (hrest : StartsWithout Char.isDigit rest) (hrest' : StartsWithout Char.isDigit rest')
    (h : field.render ++ rest = other.render ++ rest') : field = other ∧ rest = rest' := by
  cases field with
  | text label content =>
    cases other with
    | text label' content' =>
      simp only [render, List.append_assoc] at h
      obtain ⟨rfl, hcontent⟩ := jsonString_append_inj h
      obtain ⟨rfl, htail⟩ := jsonString_append_inj (List.append_cancel_left hcontent)
      exact ⟨rfl, htail⟩
    | number label' n =>
      simp only [render, List.append_assoc] at h
      obtain ⟨rfl, hcontent⟩ := jsonString_append_inj h
      exact absurd (List.append_cancel_left hcontent) (Text.jsonString_append_ne _ _ _ _)
  | number label n =>
    cases other with
    | text label' content =>
      simp only [render, List.append_assoc] at h
      obtain ⟨rfl, hcontent⟩ := jsonString_append_inj h
      exact absurd (List.append_cancel_left hcontent).symm (Text.jsonString_append_ne _ _ _ _)
    | number label' m =>
      simp only [render, List.append_assoc] at h
      obtain ⟨rfl, hcontent⟩ := jsonString_append_inj h
      obtain ⟨rfl, htail⟩ :=
        Text.ofNat_append_inj hrest hrest' (List.append_cancel_left hcontent)
      exact ⟨rfl, htail⟩

def behind (fields : List JsonField) : Text :=
  (fields.flatMap fun field => ',' :: ' ' :: field.render) ++ ['\x7d']

@[simp] theorem behind_nil : behind [] = ['\x7d'] := rfl

@[simp] theorem behind_cons (field : JsonField) (fields : List JsonField) :
    behind (field :: fields) = ',' :: ' ' :: (field.render ++ behind fields) := by
  simp [behind]

theorem startsWithout_behind (fields : List JsonField) :
    StartsWithout Char.isDigit (behind fields) := by
  cases fields with
  | nil => simp
  | cons field fields => simp

theorem behind_injective {fields more : List JsonField} (h : behind fields = behind more) :
    fields = more := by
  induction fields generalizing more with
  | nil =>
    cases more with
    | nil => rfl
    | cons field more => simp at h
  | cons field fields ih =>
    cases more with
    | nil => simp at h
    | cons other more =>
      simp only [behind_cons, List.cons.injEq, true_and] at h
      obtain ⟨rfl, hrest⟩ :=
        render_append_inj (startsWithout_behind fields) (startsWithout_behind more) h
      rw [ih hrest]

end JsonField

theorem jsonObject_cons (field : JsonField) (fields : List JsonField) :
    jsonObject (field :: fields) = '\x7b' :: (field.render ++ JsonField.behind fields) := by
  simp [jsonObject, join_cons, JsonField.behind, List.flatMap_map]

/-- An object tells its members. -/
theorem jsonObject_injective {fields more : List JsonField}
    (h : jsonObject fields = jsonObject more) : fields = more := by
  have hempty : ∀ field fields, jsonObject [] ≠ jsonObject (field :: fields) := by
    intro field fields
    rw [jsonObject_cons]
    cases field <;> simp [jsonObject, join, JsonField.render, jsonString, quotationMark]
  cases fields with
  | nil =>
    cases more with
    | nil => rfl
    | cons field more => exact absurd h (hempty field more)
  | cons field fields =>
    cases more with
    | nil => exact absurd h.symm (hempty field fields)
    | cons other more =>
      rw [jsonObject_cons, jsonObject_cons] at h
      obtain ⟨rfl, hrest⟩ := JsonField.render_append_inj (JsonField.startsWithout_behind fields)
        (JsonField.startsWithout_behind more) (List.cons.inj h).2
      rw [JsonField.behind_injective hrest]

theorem newline_not_mem_jsonObject (fields : List JsonField) : '\n' ∉ jsonObject fields := by
  cases fields with
  | nil => decide
  | cons field fields =>
    have hnone := JsonField.newline_not_mem_render
    simp [jsonObject_cons, JsonField.behind, hnone]

theorem DiagnosticCode.name_injective {code other : DiagnosticCode} (h : code.name = other.name) :
    code = other := by
  have hread := code.ofName?_name
  rw [h, other.ofName?_name] at hread
  exact (Option.some.inj hread).symm

theorem Span.eq_of_bounds {span other : Option Span}
    (hstart : span.map Span.start = other.map Span.start)
    (hstop : span.map Span.stop = other.map Span.stop) : span = other := by
  cases span with
  | none =>
    cases other with
    | none => rfl
    | some b => cases hstart
  | some a =>
    cases other with
    | none => cases hstart
    | some b =>
      obtain ⟨start, stop, hle⟩ := a
      obtain ⟨start', stop', hle'⟩ := b
      obtain rfl := Option.some.inj hstart
      obtain rfl := Option.some.inj hstop
      rfl

namespace Diagnostic

/-- An optional text as it is shown: an empty one counts as none. -/
def shown (text : Option Text) : Option Text := text.filter (· ≠ [])

/-- Diagnostics that are the same but for optional texts that are empty in the one and not there in
the other. -/
structure Alike (a b : Diagnostic) : Prop where
  code : a.code = b.code
  severity : a.severity = b.severity
  message : a.message = b.message
  span : a.span = b.span
  key : shown a.key = shown b.key
  language : shown a.language = shown b.language
  hint : shown a.hint = shown b.hint

theorem note?_eq (label : Text) (text : Option Text) :
    note? label text = (shown text).map (Note.mk label) := by
  cases text with
  | none => rfl
  | some text => by_cases h : text = [] <;> simp [note?, shown, Option.filter, h]

end Diagnostic

def JsonField.textUnder? (label : Text) (fields : List JsonField) : Option Text :=
  fields.findSome? fun field =>
    match field with
    | .text other content => if other = label then some content else none
    | .number .. => none

def JsonField.numberUnder? (label : Text) (fields : List JsonField) : Option Nat :=
  fields.findSome? fun field =>
    match field with
    | .text .. => none
    | .number other n => if other = label then some n else none

namespace Rendering

variable {rendering : Rendering}

section Plain

variable (hplain : rendering.sanitize = false)

include hplain

theorem clip_of_plain (text : Text) : rendering.clip text = text := by
  simp [clip, hplain]

/-- The members of an object tell all of a diagnostic by their names. -/
theorem members_jsonFields (diagnostic : Diagnostic) :
    JsonField.textUnder? "code" (rendering.jsonFields diagnostic) = some diagnostic.code.name ∧
    JsonField.textUnder? "severity" (rendering.jsonFields diagnostic) =
      some diagnostic.severity.name ∧
    JsonField.textUnder? "message" (rendering.jsonFields diagnostic) = some diagnostic.message ∧
    JsonField.numberUnder? "start" (rendering.jsonFields diagnostic) =
      diagnostic.span.map Span.start ∧
    JsonField.numberUnder? "end" (rendering.jsonFields diagnostic) =
      diagnostic.span.map Span.stop ∧
    JsonField.textUnder? "key" (rendering.jsonFields diagnostic) =
      Diagnostic.shown diagnostic.key ∧
    JsonField.textUnder? "language" (rendering.jsonFields diagnostic) =
      Diagnostic.shown diagnostic.language ∧
    JsonField.textUnder? "hint" (rendering.jsonFields diagnostic) =
      Diagnostic.shown diagnostic.hint := by
  simp only [jsonFields, clip_of_plain hplain, Diagnostic.notes, Diagnostic.note?_eq]
  generalize Diagnostic.shown diagnostic.key = key
  generalize Diagnostic.shown diagnostic.language = language
  generalize Diagnostic.shown diagnostic.hint = hint
  -- which members there are depends on which of these four are
  cases diagnostic.span <;> cases key <;> cases language <;> cases hint <;>
    exact ⟨rfl, rfl, rfl, rfl, rfl, rfl, rfl, rfl⟩

theorem jsonFields_eq_iff {a b : Diagnostic} :
    rendering.jsonFields a = rendering.jsonFields b ↔ a.Alike b := by
  constructor
  · intro h
    obtain ⟨hcode, hseverity, hmessage, hstart, hstop, hkey, hlanguage, hhint⟩ :=
      members_jsonFields hplain a
    obtain ⟨hcode', hseverity', hmessage', hstart', hstop', hkey', hlanguage', hhint'⟩ :=
      members_jsonFields hplain b
    rw [h] at hcode hseverity hmessage hstart hstop hkey hlanguage hhint
    constructor
    · exact DiagnosticCode.name_injective (Option.some.inj (hcode.symm.trans hcode'))
    · exact congrArg Severity.mk (Option.some.inj (hseverity.symm.trans hseverity'))
    · exact Option.some.inj (hmessage.symm.trans hmessage')
    · exact Span.eq_of_bounds (hstart.symm.trans hstart') (hstop.symm.trans hstop')
    · exact hkey.symm.trans hkey'
    · exact hlanguage.symm.trans hlanguage'
    · exact hhint.symm.trans hhint'
  · intro h
    simp only [jsonFields, Diagnostic.notes, Diagnostic.note?_eq, h.code, h.severity, h.message,
      h.span, h.key, h.language, h.hint]

end Plain

section Json

variable (hstyle : rendering.style = .json)

include hstyle

theorem render_json (diagnostic : Diagnostic) :
    rendering.render diagnostic = jsonObject (rendering.jsonFields diagnostic) := by
  rw [render, hstyle]

theorem newline_not_mem_render (diagnostic : Diagnostic) :
    '\n' ∉ rendering.render diagnostic := by
  rw [render_json hstyle]
  exact newline_not_mem_jsonObject _

theorem split_renderAll {diagnostics : List Diagnostic} (hne : diagnostics ≠ []) :
    Text.split '\n' (rendering.renderAll diagnostics) = diagnostics.map rendering.render := by
  have hseparator : rendering.separator = ['\n'] := by
    rw [separator, hstyle]
    rfl
  have hlines : ∀ line ∈ diagnostics.map rendering.render, '\n' ∉ line := by
    intro line hline
    obtain ⟨diagnostic, _, rfl⟩ := List.mem_map.1 hline
    exact newline_not_mem_render hstyle diagnostic
  rw [renderAll, hseparator, split_join (by simpa using hne) hlines]

/-- No list of diagnostics but the empty one is shown by nothing. -/
theorem renderAll_eq_nil_iff {diagnostics : List Diagnostic} :
    rendering.renderAll diagnostics = [] ↔ diagnostics = [] := by
  constructor
  · intro h
    by_contra hne
    have hsplit := split_renderAll hstyle hne
    obtain ⟨diagnostic, rest, rfl⟩ := List.exists_cons_of_ne_nil hne
    rw [h, List.map_cons, render_json hstyle] at hsplit
    exact absurd (List.cons.inj hsplit).1 (by simp [jsonObject])
  · rintro rfl
    rfl

/-- As many line breaks as there are separators: one less than there are diagnostics. -/
theorem count_newline_renderAll (diagnostics : List Diagnostic) :
    (rendering.renderAll diagnostics).count '\n' = diagnostics.length - 1 := by
  by_cases hne : diagnostics = []
  · subst hne
    rfl
  · have hlength := length_split '\n' (rendering.renderAll diagnostics)
    rw [split_renderAll hstyle hne, List.length_map] at hlength
    omega

theorem renderAll_eq_iff {diagnostics others : List Diagnostic} :
    rendering.renderAll diagnostics = rendering.renderAll others ↔
      diagnostics.map rendering.render = others.map rendering.render := by
  constructor
  · intro h
    by_cases hne : diagnostics = []
    · subst hne
      have hother : others = [] := (renderAll_eq_nil_iff hstyle).1 (h.symm.trans rfl)
      rw [hother]
    · have hother : others ≠ [] := by
        rintro rfl
        exact hne ((renderAll_eq_nil_iff hstyle).1 h)
      rw [← split_renderAll hstyle hne, h, split_renderAll hstyle hother]
  · intro h
    rw [renderAll, h, renderAll]

end Json

/-- In JSON every diagnostic is a line. The lines of a rendering are those of its diagnostics in
their order, and nothing is written for no diagnostics; and if nothing is cut, two lists are
rendered the same if and only if they have alike diagnostics in the same places. -/
theorem renderAll_json_faithful (hstyle : rendering.style = .json)
    (hplain : rendering.sanitize = false) :
    (∀ diagnostic, '\n' ∉ rendering.render diagnostic) ∧
    (∀ diagnostics, (rendering.renderAll diagnostics).count '\n' = diagnostics.length - 1) ∧
    rendering.renderAll [] = [] ∧
    (∀ diagnostics ≠ [], Text.split '\n' (rendering.renderAll diagnostics) =
      diagnostics.map rendering.render) ∧
    ∀ diagnostics others, rendering.renderAll diagnostics = rendering.renderAll others ↔
      List.Forall₂ Diagnostic.Alike diagnostics others := by
  refine ⟨newline_not_mem_render hstyle, count_newline_renderAll hstyle, rfl,
    fun diagnostics hne => split_renderAll hstyle hne, ?_⟩
  intro diagnostics others
  have hline : ∀ a b, rendering.render a = rendering.render b ↔ a.Alike b := by
    intro a b
    rw [render_json hstyle, render_json hstyle, ← jsonFields_eq_iff hplain]
    exact ⟨jsonObject_injective, congrArg jsonObject⟩
  rw [renderAll_eq_iff hstyle, ← List.forall₂_eq_eq_eq, List.forall₂_map_left_iff,
    List.forall₂_map_right_iff]
  simp only [hline]

def imitation : Diagnostic :=
  { code := .invalidInterval, message := "a\", \"key\": \"b\nc", hint := some [] }

def original : Diagnostic := { code := .invalidInterval, message := "a", key := some "b\nc" }

theorem renderAll_json_faithful_imitation :
    Text.split '\n' (renderAll { style := .json } [imitation, original]) =
      [render { style := .json } imitation, render { style := .json } original] ∧
    renderAll { style := .json } [imitation, original] ≠
      renderAll { style := .json } [original, imitation] ∧
    renderAll { style := .json } [imitation] =
      renderAll { style := .json } [{ imitation with hint := none }] := by
  obtain ⟨-, -, -, hsplit, hsame⟩ :=
    @renderAll_json_faithful { style := .json } rfl rfl
  refine ⟨hsplit [imitation, original] (by simp), ?_, ?_⟩
  · intro h
    cases (hsame _ _).1 h with
    | cons halike _ => exact absurd halike.message (by decide)
  · exact (hsame _ _).2 (.cons ⟨rfl, rfl, rfl, rfl, rfl, rfl, rfl⟩ .nil)

end Rendering
end Phrasebook
