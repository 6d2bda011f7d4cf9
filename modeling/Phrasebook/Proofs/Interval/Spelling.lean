import Mathlib.Data.List.Basic
import Phrasebook.Proofs.Interval.Scanning

/-!
Intervals without their white space. White space stands only at the joints of an interval, so
leaving all of it out gives the same form written without gaps, and that has the same shape. Two
forms are the same without white space if and only if they have one shape and spell its numbers
alike: the digits of a number and the sign of an infinity are all that one shape can be written with
in different ways.
-/
namespace Phrasebook

open Text

def Spaced.compact {α : Type} (spaced : Spaced α) : Spaced α := ⟨.empty, spaced.item, .empty⟩

theorem Spaced.text_compact {α : Type} (write : α → Text) (spaced : Spaced α) :
    spaced.compact.text write = write spaced.item := by
  simp [text, compact, Gap.empty]

namespace Text

theorem squeeze_append (first last : Text) :
    squeeze (first ++ last) = squeeze first ++ squeeze last :=
  List.filter_append ..

theorem squeeze_cons {c : Char} (h : isBlank c = false) (rest : Text) :
    squeeze (c :: rest) = c :: squeeze rest :=
  List.filter_cons_of_pos (by simp [h])

theorem squeeze_gap (gap : Gap) : squeeze gap.text = [] := by
  refine List.filter_eq_nil_iff.2 fun c hc => ?_
  simp [gap.blank c hc]

theorem squeeze_eq_self {text : Text} (h : ∀ c ∈ text, isBlank c = false) : squeeze text = text :=
  List.filter_eq_self.2 fun c hc => by simp [h c hc]

/-- White space around a thing is left out, and nothing of the thing. -/
theorem squeeze_spaced {α : Type} {write : α → Text} (hwrite : ∀ a, squeeze (write a) = write a)
    (spaced : Spaced α) : squeeze (spaced.text write) = spaced.compact.text write := by
  rw [Spaced.text_compact, Spaced.text, squeeze_append, squeeze_append, squeeze_gap, squeeze_gap,
    hwrite, List.nil_append, List.append_nil]

end Text

namespace Interval

theorem squeeze_digits (digits : Digits) : squeeze digits.text = digits.text :=
  squeeze_eq_self fun c hc => isBlank_of_isDigit (digits.isDigit c hc)

theorem Literal.squeeze_text (literal : Literal) : squeeze literal.text = literal.text := by
  have hunsigned : squeeze literal.unsignedText = literal.unsignedText := by
    unfold unsignedText
    cases literal.fraction with
    | none => exact squeeze_digits literal.whole
    | some fraction =>
      rw [squeeze_append, squeeze_cons (by decide), squeeze_digits, squeeze_digits]
  unfold text
  split
  · rw [squeeze_cons (by decide), hunsigned]
  · exact hunsigned

theorem Bound.squeeze_text (bound : Bound) : squeeze bound.text = bound.text := by
  cases bound with
  | number literal => exact literal.squeeze_text
  | negativeInfinity => rfl
  | positiveInfinity signed => cases signed <;> rfl

theorem squeeze_membersText (first : Spaced Literal) (others : List (Spaced Literal)) :
    squeeze (membersText first others) =
      membersText first.compact (others.map Spaced.compact) := by
  induction others generalizing first with
  | nil =>
    rw [List.map_nil, membersText_nil, membersText_nil, squeeze_append,
      squeeze_spaced Literal.squeeze_text]
    rfl
  | cons next others ih =>
    rw [List.map_cons, membersText_cons, membersText_cons, squeeze_append,
      squeeze_spaced Literal.squeeze_text, squeeze_cons (by decide), ih]

theorem squeeze_endsText (left right : Spaced Bound) (rightClosed : Bool) :
    squeeze (endsText left right rightClosed) =
      endsText left.compact right.compact rightClosed := by
  have hbracket := (startsWithout_of_isJoint (isJoint_rightBracket rightClosed) []).1
  rw [startsWithout_cons] at hbracket
  rw [endsText, endsText, squeeze_append, squeeze_cons (by decide), squeeze_append,
    squeeze_cons hbracket, squeeze_spaced Bound.squeeze_text, squeeze_spaced Bound.squeeze_text]
  rfl

namespace Form

def compact : Form → Form
  | set first others => set first.compact (others.map Spaced.compact)
  | range leftClosed left right rightClosed =>
    range leftClosed left.compact right.compact rightClosed

theorem squeeze_text (form : Form) : squeeze form.text = form.compact.text := by
  cases form with
  | set first others =>
    rw [text, squeeze_cons (by decide), squeeze_membersText]
    rfl
  | range leftClosed left right rightClosed =>
    have hbracket := (startsWithout_of_isJoint (isJoint_leftBracket leftClosed) []).1
    rw [startsWithout_cons] at hbracket
    rw [text, squeeze_cons hbracket, squeeze_endsText]
    rfl

theorem shape_compact (form : Form) : form.compact.shape = form.shape := by
  cases form with
  | set first others =>
    simp only [compact, shape, List.map_cons, List.map_map]
    rfl
  | range leftClosed left right rightClosed => rfl

def spellings : Form → List Text
  | set first others => (first :: others).map (·.item.text)
  | range _ left right _ => [left.item.text, right.item.text]

/-- Two forms are the same interval, and spell its numbers alike. -/
def Alike (form other : Form) : Prop :=
  form.shape = other.shape ∧ form.spellings = other.spellings

instance (form other : Form) : Decidable (form.Alike other) :=
  inferInstanceAs (Decidable (_ ∧ _))

theorem spellings_compact (form : Form) : form.compact.spellings = form.spellings := by
  cases form with
  | set first others =>
    simp only [compact, spellings, List.map_cons, List.map_map]
    rfl
  | range leftClosed left right rightClosed => rfl

end Form

theorem Readable.injective {α : Type} {write : α → Text} (hwrite : Readable write) :
    Function.Injective write := by
  intro a b h
  exact (hwrite.unique a b [] [] (startsWithout_nil _) (startsWithout_nil _) (by rw [h])).1

/-- Things that are spelled alike are the same when nothing is around them. -/
theorem Readable.map_compact {α : Type} {write : α → Text} (hwrite : Readable write)
    {list other : List (Spaced α)}
    (h : list.map (fun spaced => write spaced.item) = other.map fun spaced => write spaced.item) :
    list.map Spaced.compact = other.map Spaced.compact := by
  have hitems : list.map Spaced.item = other.map Spaced.item := by
    apply List.map_injective_iff.2 hwrite.injective
    rwa [List.map_map, List.map_map]
  have hcompact := congrArg (List.map fun item => Spaced.mk .empty item .empty) hitems
  rwa [List.map_map, List.map_map] at hcompact

namespace Form

theorem compact_eq_of_alike {form other : Form} (h : form.Alike other) :
    form.compact = other.compact := by
  obtain ⟨hshape, hspellings⟩ := h
  cases form with
  | set first others =>
    cases other with
    | set first' others' =>
      obtain ⟨hfirst, hothers⟩ := List.cons.inj (Literal.readable.map_compact hspellings)
      rw [compact, compact, hfirst, hothers]
    | range leftClosed' left' right' rightClosed' => cases hshape
  | range leftClosed left right rightClosed =>
    cases other with
    | set first' others' => cases hshape
    | range leftClosed' left' right' rightClosed' =>
      simp only [shape, Shape.range.injEq] at hshape
      obtain ⟨-, -, rfl, rfl⟩ := hshape
      have hends : [left, right].map (fun spaced => spaced.item.text) =
          [left', right'].map fun spaced => spaced.item.text := hspellings
      obtain ⟨hleft, hright⟩ := List.cons.inj (Bound.readable.map_compact hends)
      rw [compact, compact, hleft, (List.cons.inj hright).1]

/-- Two forms are the same without white space if and only if they are the same interval and spell
its numbers alike. -/
theorem squeeze_eq_iff (form other : Form) :
    squeeze form.text = squeeze other.text ↔ form.Alike other := by
  rw [squeeze_text, squeeze_text]
  constructor
  · intro h
    have htexts : form.compact.text ++ [] = other.compact.text ++ [] := by rw [h]
    have hcompact := (text_unique htexts).1
    rw [Alike, ← form.shape_compact, ← form.spellings_compact, hcompact, shape_compact,
      spellings_compact]
    exact ⟨rfl, rfl⟩
  · intro h
    rw [compact_eq_of_alike h]

end Form
end Interval
end Phrasebook
