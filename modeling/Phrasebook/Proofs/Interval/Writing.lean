import Phrasebook.Interval.Scanner
import Phrasebook.Proofs.Text.Spacing

/-!
How intervals are written. A form is a derivation in the grammar of intervals: it holds the sign,
the digits, the spelling of an infinity, the brackets, and the white space at every joint. From it
follow the text that it spells and the shape that it means. The grammar is unambiguous, also when
more text follows: what a form spells tells the form.
-/
namespace Phrasebook.Interval

open Text

structure Digits where
  text : Text
  ne_nil : text ≠ []
  isDigit : ∀ c ∈ text, c.isDigit

/-- A number as it is written: a sign or none, digits, and perhaps digits after a point. -/
structure Literal where
  negative : Bool
  whole : Digits
  fraction : Option Digits

/-- The end of a range as it is written. -/
inductive Bound
  | number (literal : Literal)
  | negativeInfinity
  | positiveInfinity (signed : Bool)

inductive Form
  | set (first : Spaced Literal) (others : List (Spaced Literal))
  | range (leftClosed : Bool) (left right : Spaced Bound) (rightClosed : Bool)

namespace Literal

def unsignedText (literal : Literal) : Text :=
  match literal.fraction with
  | none => literal.whole.text
  | some fraction => literal.whole.text ++ '.' :: fraction.text

def text (literal : Literal) : Text :=
  if literal.negative then '-' :: literal.unsignedText else literal.unsignedText

def value (literal : Literal) : Binary64 :=
  match literal.fraction with
  | none => .ofScientific literal.negative (Text.toNat literal.whole.text) 0
  | some fraction =>
    .ofScientific literal.negative (Text.toNat (literal.whole.text ++ fraction.text))
      (-fraction.text.length)

end Literal

namespace Bound

def text : Bound → Text
  | number literal => literal.text
  | negativeInfinity => "-Inf"
  | positiveInfinity signed => if signed then "+Inf" else "Inf"

def value : Bound → Binary64
  | number literal => literal.value
  | negativeInfinity => .infinite true
  | positiveInfinity _ => .infinite false

end Bound

/-- The bracket that opens a range: it opens towards the range if its end is included. -/
def leftBracket (closed : Bool) : Char := if closed then '[' else ']'

def rightBracket (closed : Bool) : Char := if closed then ']' else '['

def membersText (first : Spaced Literal) (others : List (Spaced Literal)) : Text :=
  first.text Literal.text ++ (others.flatMap fun other => ',' :: other.text Literal.text) ++
    ['\x7d']

def endsText (left right : Spaced Bound) (rightClosed : Bool) : Text :=
  left.text Bound.text ++ ',' :: (right.text Bound.text ++ [rightBracket rightClosed])

namespace Form

def text : Form → Text
  | set first others => '\x7b' :: membersText first others
  | range leftClosed left right rightClosed =>
    leftBracket leftClosed :: endsText left right rightClosed

def shape : Form → Shape
  | set first others => .members ((first :: others).map (·.item.value))
  | range leftClosed left right rightClosed =>
    .range left.item.value right.item.value leftClosed rightClosed

def interval (form : Form) : Interval := ⟨form.text, form.shape⟩

end Form

theorem leftBracket_injective {closed closed' : Bool}
    (h : leftBracket closed = leftBracket closed') : closed = closed' := by
  revert h
  cases closed <;> cases closed' <;> decide

theorem rightBracket_injective {closed closed' : Bool}
    (h : rightBracket closed = rightBracket closed') : closed = closed' := by
  revert h
  cases closed <;> cases closed' <;> decide

theorem membersText_nil (first : Spaced Literal) :
    membersText first [] = first.text Literal.text ++ ['\x7d'] := by
  simp [membersText]

theorem membersText_cons (first next : Spaced Literal) (others : List (Spaced Literal)) :
    membersText first (next :: others) =
      first.text Literal.text ++ ',' :: membersText next others := by
  simp [membersText]

def isNumeric (c : Char) : Bool := c.isDigit || c == '.'

def isJoint (c : Char) : Bool := !isBlank c && !isNumeric c

theorem isJoint_leftBracket (closed : Bool) : isJoint (leftBracket closed) := by
  cases closed <;> decide

theorem isJoint_rightBracket (closed : Bool) : isJoint (rightBracket closed) := by
  cases closed <;> decide

theorem startsWithout_of_isJoint {c : Char} (h : isJoint c) (rest : Text) :
    StartsWithout isBlank (c :: rest) ∧ StartsWithout isNumeric (c :: rest) := by
  simpa [isJoint] using h

theorem isBlank_of_isDigit {c : Char} (h : c.isDigit) : isBlank c = false := by
  have hcode : 0x30 ≤ c.toNat ∧ c.toNat ≤ 0x39 := Char.isDigit_iff_toNat.1 h
  simp only [isBlank, Bool.or_eq_false_iff, Bool.and_eq_false_iff, decide_eq_false_iff_not,
    beq_eq_false_iff_ne]
  omega

theorem isNumeric_of_isBlank {c : Char} (h : isBlank c) : isNumeric c = false := by
  by_contra hnumeric
  rw [Bool.not_eq_false, isNumeric, Bool.or_eq_true, beq_iff_eq] at hnumeric
  rcases hnumeric with hdigit | rfl
  · rw [isBlank_of_isDigit hdigit] at h
    cases h
  · exact absurd h (by decide)

theorem isNumeric_of_isDigit {c : Char} (h : c.isDigit) : isNumeric c := by
  rw [isNumeric, h, Bool.true_or]

theorem startsWithout_isDigit {text : Text} (h : StartsWithout isNumeric text) :
    StartsWithout Char.isDigit text :=
  h.mono fun _ => isNumeric_of_isDigit

/-- The characters with which a number goes on: there is one point at most. -/
def Literal.goesOn (literal : Literal) : Char → Bool :=
  match literal.fraction with
  | none => isNumeric
  | some _ => Char.isDigit

def Bound.goesOn : Bound → Char → Bool
  | number literal => literal.goesOn
  | negativeInfinity | positiveInfinity _ => fun _ => false

theorem Literal.isNumeric_of_goesOn {literal : Literal} {c : Char} (h : literal.goesOn c) :
    isNumeric c := by
  unfold goesOn at h
  cases hfraction : literal.fraction with
  | none =>
    rw [hfraction] at h
    exact h
  | some fraction =>
    rw [hfraction] at h
    exact isNumeric_of_isDigit h

theorem Bound.isNumeric_of_goesOn {bound : Bound} {c : Char} (h : bound.goesOn c) :
    isNumeric c := by
  cases bound with
  | number literal => exact Literal.isNumeric_of_goesOn h
  | negativeInfinity => cases h
  | positiveInfinity signed => cases h

/-- White space ends a number, and so does what follows it. -/
theorem startsWithout_gap (gap : Gap) {text : Text} (h : StartsWithout isNumeric text) :
    StartsWithout isNumeric (gap.text ++ text) := by
  obtain ⟨blanks, hblank⟩ := gap
  cases blanks with
  | nil => exact h
  | cons c rest =>
    rw [List.cons_append, startsWithout_cons]
    exact isNumeric_of_isBlank (hblank c List.mem_cons_self)

theorem startsWithout_point (rest : Text) : StartsWithout Char.isDigit ('.' :: rest) := by
  rw [startsWithout_cons]
  decide

theorem not_startsWithout_point (rest : Text) : ¬ StartsWithout isNumeric ('.' :: rest) := by
  rw [startsWithout_cons]
  decide

/-- A way of writing things that do not begin with white space, and of which the text tells the
thing if no character follows that may go on with a number. -/
structure Readable {α : Type} (write : α → Text) : Prop where
  exists_cons : ∀ a, ∃ c rest, write a = c :: rest ∧ isBlank c = false
  unique : ∀ a b rest left, StartsWithout isNumeric rest → StartsWithout isNumeric left →
    write a ++ rest = write b ++ left → a = b ∧ rest = left

namespace Digits

theorem exists_cons (digits : Digits) : ∃ c rest, digits.text = c :: rest ∧ c.isDigit := by
  obtain ⟨text, hne, hdigit⟩ := digits
  obtain ⟨c, rest, rfl⟩ := List.exists_cons_of_ne_nil hne
  exact ⟨c, rest, rfl, hdigit c List.mem_cons_self⟩

theorem unique {digits other : Digits} {rest left : Text}
    (hrest : StartsWithout Char.isDigit rest) (hleft : StartsWithout Char.isDigit left)
    (h : digits.text ++ rest = other.text ++ left) : digits = other ∧ rest = left := by
  obtain ⟨htext, heq⟩ := run_unique digits.isDigit other.isDigit hrest hleft h
  cases digits
  cases other
  exact ⟨by simpa using htext, heq⟩

end Digits

namespace Literal

theorem exists_unsignedText (literal : Literal) :
    ∃ c rest, literal.unsignedText = c :: rest ∧ c.isDigit := by
  obtain ⟨c, rest, hwhole, hdigit⟩ := literal.whole.exists_cons
  unfold unsignedText
  cases literal.fraction with
  | none => exact ⟨c, rest, hwhole, hdigit⟩
  | some fraction => exact ⟨c, rest ++ '.' :: fraction.text, by rw [hwhole]; rfl, hdigit⟩

theorem unsignedText_unique {literal other : Literal} {rest left : Text}
    (hrest : StartsWithout isNumeric rest) (hleft : StartsWithout isNumeric left)
    (h : literal.unsignedText ++ rest = other.unsignedText ++ left) :
    literal.whole = other.whole ∧ literal.fraction = other.fraction ∧ rest = left := by
  have hdigit := startsWithout_isDigit hrest
  have hdigit' := startsWithout_isDigit hleft
  unfold unsignedText at h
  cases hfraction : literal.fraction with
  | none =>
    cases hother : other.fraction with
    | none =>
      simp only [hfraction, hother] at h
      obtain ⟨hwhole, heq⟩ := Digits.unique hdigit hdigit' h
      exact ⟨hwhole, rfl, heq⟩
    | some fraction =>
      simp only [hfraction, hother, List.append_assoc, List.cons_append] at h
      obtain ⟨-, rfl⟩ := Digits.unique hdigit (startsWithout_point _) h
      exact absurd hrest (not_startsWithout_point _)
  | some fraction =>
    cases hother : other.fraction with
    | none =>
      simp only [hfraction, hother, List.append_assoc, List.cons_append] at h
      obtain ⟨-, rfl⟩ := Digits.unique (startsWithout_point _) hdigit' h
      exact absurd hleft (not_startsWithout_point _)
    | some fraction' =>
      simp only [hfraction, hother, List.append_assoc, List.cons_append] at h
      obtain ⟨hwhole, htail⟩ := Digits.unique (startsWithout_point _) (startsWithout_point _) h
      obtain ⟨hfractions, heq⟩ := Digits.unique hdigit hdigit' (List.cons.inj htail).2
      exact ⟨hwhole, by rw [hfractions], heq⟩

theorem readable : Readable text where
  exists_cons := by
    intro literal
    obtain ⟨c, rest, hunsigned, hdigit⟩ := literal.exists_unsignedText
    unfold text
    split
    · exact ⟨'-', _, rfl, by decide⟩
    · exact ⟨c, rest, hunsigned, isBlank_of_isDigit hdigit⟩
  unique := by
    intro literal other rest left hrest hleft h
    -- a sign is no digit, so both have one or neither does
    have hsign : ∀ (signed unsigned : Literal) (rest left : Text),
        '-' :: signed.unsignedText ++ rest ≠ unsigned.unsignedText ++ left := by
      intro signed unsigned rest left heq
      obtain ⟨c, after, hunsigned, hdigit⟩ := unsigned.exists_unsignedText
      have hminus : c ≠ '-' := ne_of_kind hdigit (by decide)
      rw [hunsigned] at heq
      exact hminus (List.cons.inj heq).1.symm
    have hparts : literal.negative = other.negative ∧
        literal.unsignedText ++ rest = other.unsignedText ++ left := by
      unfold text at h
      cases hnegative : literal.negative <;> cases hother : other.negative <;>
        simp only [hnegative, hother, if_true, if_false, Bool.false_eq_true] at h
      · exact ⟨rfl, h⟩
      · exact absurd h.symm (hsign _ _ _ _)
      · exact absurd h (hsign _ _ _ _)
      · exact ⟨rfl, (List.cons.inj h).2⟩
    obtain ⟨hnegative, hunsigned⟩ := hparts
    obtain ⟨hwhole, hfraction, heq⟩ := unsignedText_unique hrest hleft hunsigned
    cases literal
    cases other
    simp only at hnegative hwhole hfraction
    exact ⟨by rw [hnegative, hwhole, hfraction], heq⟩

/-- No infinity begins where a number does. -/
theorem infinity?_text (literal : Literal) (rest : Text) :
    infinity? (literal.text ++ rest) = none := by
  obtain ⟨c, after, hunsigned, hdigit⟩ := literal.exists_unsignedText
  have hinitial : c ≠ 'I' := ne_of_kind hdigit (by decide)
  have hplus : c ≠ '+' := ne_of_kind hdigit (by decide)
  have hminus : c ≠ '-' := ne_of_kind hdigit (by decide)
  unfold text
  split <;> simp [hunsigned, infinity?, hinitial, hplus, hminus]

end Literal

namespace Bound

/-- Reading an infinity gives back how it was spelled, or that it was none. -/
theorem infinity?_text (bound : Bound) (rest : Text) :
    infinity? (bound.text ++ rest) =
      match bound with
      | number _ => none
      | infinite => some (infinite.value, rest) := by
  cases bound with
  | number literal => exact literal.infinity?_text rest
  | negativeInfinity => rfl
  | positiveInfinity signed => cases signed <;> rfl

theorem readable : Readable text where
  exists_cons := by
    intro bound
    cases bound with
    | number literal => exact Literal.readable.exists_cons literal
    | negativeInfinity => exact ⟨'-', _, rfl, by decide⟩
    | positiveInfinity signed =>
      cases signed
      · exact ⟨'I', _, rfl, by decide⟩
      · exact ⟨'+', _, rfl, by decide⟩
  unique := by
    intro bound other rest left hrest hleft h
    -- numbers are told from infinities by what the scanner of infinities says of them
    have hscan := infinity?_text bound rest
    rw [h, infinity?_text other left] at hscan
    cases bound with
    | number literal =>
      cases other with
      | number literal' =>
        obtain ⟨rfl, heq⟩ := Literal.readable.unique _ _ _ _ hrest hleft h
        exact ⟨rfl, heq⟩
      | negativeInfinity => cases hscan
      | positiveInfinity signed => cases hscan
    | negativeInfinity =>
      cases other with
      | number literal => cases hscan
      | negativeInfinity => exact ⟨rfl, by simpa [text] using h⟩
      | positiveInfinity signed => cases hscan
    | positiveInfinity signed =>
      cases other with
      | number literal => cases hscan
      | negativeInfinity => cases hscan
      | positiveInfinity signed' =>
        cases signed <;> cases signed' <;> simp [text] at h
        · exact ⟨rfl, h⟩
        · exact ⟨rfl, h⟩

end Bound

section Spaced

variable {α : Type} {write : α → Text} {spaced other : Spaced α} {c d : Char} {rest left : Text}

theorem Readable.startsWithout_isBlank (hwrite : Readable write) (a : α) (rest : Text) :
    StartsWithout isBlank (write a ++ rest) := by
  obtain ⟨c, after, hcons, hblank⟩ := hwrite.exists_cons a
  rw [hcons, List.cons_append, startsWithout_cons]
  exact hblank

/-- The white space on either side is known, too, where a joint follows. -/
theorem Readable.spaced_unique (hwrite : Readable write) (hc : isJoint c) (hd : isJoint d)
    (h : spaced.text write ++ c :: rest = other.text write ++ d :: left) :
    spaced = other ∧ c = d ∧ rest = left := by
  obtain ⟨before, item, after⟩ := spaced
  obtain ⟨before', item', after'⟩ := other
  obtain ⟨hblank, hnumeric⟩ := startsWithout_of_isJoint hc rest
  obtain ⟨hblank', hnumeric'⟩ := startsWithout_of_isJoint hd left
  simp only [Spaced.text, List.append_assoc] at h
  obtain ⟨hbefore, hitem⟩ := run_unique before.blank before'.blank
    (hwrite.startsWithout_isBlank _ _) (hwrite.startsWithout_isBlank _ _) h
  obtain ⟨rfl, hafter⟩ := hwrite.unique _ _ _ _ (startsWithout_gap after hnumeric)
    (startsWithout_gap after' hnumeric') hitem
  obtain ⟨hgap, heq⟩ := run_unique after.blank after'.blank hblank hblank' hafter
  obtain ⟨hjoint, hrest⟩ := List.cons.inj heq
  rw [Gap.ext hbefore, Gap.ext hgap]
  exact ⟨rfl, hjoint, hrest⟩

end Spaced

theorem membersText_unique {first first' : Spaced Literal} {others others' : List (Spaced Literal)}
    {rest left : Text} (h : membersText first others ++ rest = membersText first' others' ++ left) :
    first = first' ∧ others = others' ∧ rest = left := by
  have hcomma : isJoint ',' := by decide
  have hbrace : isJoint '\x7d' := by decide
  induction others generalizing first first' others' with
  | nil =>
    cases others' with
    | nil =>
      simp only [membersText_nil, List.append_assoc, List.cons_append, List.nil_append] at h
      obtain ⟨hfirst, -, hrest⟩ := Literal.readable.spaced_unique hbrace hbrace h
      exact ⟨hfirst, rfl, hrest⟩
    | cons next' others' =>
      simp only [membersText_nil, membersText_cons, List.append_assoc, List.cons_append,
        List.nil_append] at h
      obtain ⟨-, hjoint, -⟩ := Literal.readable.spaced_unique hbrace hcomma h
      exact absurd hjoint (by decide)
  | cons next others ih =>
    cases others' with
    | nil =>
      simp only [membersText_nil, membersText_cons, List.append_assoc, List.cons_append,
        List.nil_append] at h
      obtain ⟨-, hjoint, -⟩ := Literal.readable.spaced_unique hcomma hbrace h
      exact absurd hjoint (by decide)
    | cons next' others' =>
      simp only [membersText_cons, List.append_assoc, List.cons_append] at h
      obtain ⟨hfirst, -, htail⟩ := Literal.readable.spaced_unique hcomma hcomma h
      obtain ⟨hnext, hothers, hrest⟩ := ih htail
      exact ⟨hfirst, by rw [hnext, hothers], hrest⟩

namespace Form

/-- A text begins with at most one interval, and that is written in a single way. -/
theorem text_unique {form other : Form} {rest left : Text}
    (h : form.text ++ rest = other.text ++ left) : form = other ∧ rest = left := by
  have hbrace : ∀ closed, '\x7b' ≠ leftBracket closed := by decide
  cases form with
  | set first others =>
    cases other with
    | set first' others' =>
      obtain ⟨rfl, rfl, hrest⟩ := membersText_unique (List.cons.inj h).2
      exact ⟨rfl, hrest⟩
    | range leftClosed' left' right' rightClosed' =>
      exact absurd (List.cons.inj h).1 (hbrace leftClosed')
  | range leftClosed left right rightClosed =>
    cases other with
    | set first' others' => exact absurd (List.cons.inj h).1.symm (hbrace leftClosed)
    | range leftClosed' left' right' rightClosed' =>
      have hcomma : isJoint ',' := by decide
      simp only [text, endsText, List.append_assoc, List.cons_append, List.nil_append,
        List.cons.injEq] at h
      obtain ⟨hopen, hleft⟩ := h
      obtain ⟨rfl, -, hright⟩ := Bound.readable.spaced_unique hcomma hcomma hleft
      obtain ⟨rfl, hclose, hrest⟩ := Bound.readable.spaced_unique
        (isJoint_rightBracket rightClosed) (isJoint_rightBracket rightClosed') hright
      rw [leftBracket_injective hopen, rightBracket_injective hclose]
      exact ⟨rfl, hrest⟩

theorem exists_cons (form : Form) : ∃ c rest, form.text = c :: rest ∧ isJoint c := by
  cases form with
  | set first others => exact ⟨_, _, rfl, by decide⟩
  | range leftClosed left right rightClosed =>
    exact ⟨_, _, rfl, isJoint_leftBracket leftClosed⟩

theorem exists_concat (form : Form) : ∃ init c, form.text = init ++ [c] ∧ isJoint c := by
  cases form with
  | set first others =>
    refine ⟨'\x7b' :: (first.text Literal.text ++
      others.flatMap fun other => ',' :: other.text Literal.text), '\x7d', rfl, by decide⟩
  | range leftClosed left right rightClosed =>
    refine ⟨leftBracket leftClosed :: (left.text Bound.text ++ ',' :: right.text Bound.text),
      rightBracket rightClosed, ?_, isJoint_rightBracket rightClosed⟩
    simp [text, endsText]

theorem trimRight_text (form : Form) : trimRight form.text = form.text := by
  obtain ⟨init, c, htext, hjoint⟩ := form.exists_concat
  rw [htext]
  exact trimRight_concat init (by simpa using (startsWithout_of_isJoint hjoint []).1)

theorem startsWithout_isBlank (form : Form) :
    form.text ≠ [] ∧ StartsWithout isBlank form.text := by
  obtain ⟨c, rest, htext, hjoint⟩ := form.exists_cons
  rw [htext]
  exact ⟨by simp, (startsWithout_of_isJoint hjoint rest).1⟩

end Form

def isWritten (c : Char) : Bool :=
  isBlank c || c.isDigit || ("+,-.I[]fn\x7b\x7d" : Text).contains c

theorem isWritten_digits (digits : Digits) : ∀ c ∈ digits.text, isWritten c := by
  intro c hc
  simp [isWritten, digits.isDigit c hc]

theorem isWritten_literal (literal : Literal) : ∀ c ∈ literal.text, isWritten c := by
  have hunsigned : ∀ c ∈ literal.unsignedText, isWritten c := by
    unfold Literal.unsignedText
    cases literal.fraction with
    | none => exact isWritten_digits literal.whole
    | some fraction =>
      rw [List.forall_mem_append, List.forall_mem_cons]
      exact ⟨isWritten_digits literal.whole, by decide, isWritten_digits fraction⟩
  unfold Literal.text
  split
  · rw [List.forall_mem_cons]
    exact ⟨by decide, hunsigned⟩
  · exact hunsigned

theorem isWritten_bound (bound : Bound) : ∀ c ∈ bound.text, isWritten c := by
  cases bound with
  | number literal => exact isWritten_literal literal
  | negativeInfinity => exact List.all_eq_true.1 rfl
  | positiveInfinity signed => cases signed <;> exact List.all_eq_true.1 rfl

theorem isWritten_spaced {α : Type} {write : α → Text} (hwrite : ∀ a, ∀ c ∈ write a, isWritten c)
    (spaced : Spaced α) : ∀ c ∈ spaced.text write, isWritten c := by
  have hgap : ∀ gap : Gap, ∀ c ∈ gap.text, isWritten c := by
    intro gap c hc
    simp [isWritten, gap.blank c hc]
  rw [Spaced.text, List.forall_mem_append, List.forall_mem_append]
  exact ⟨⟨hgap spaced.before, hwrite spaced.item⟩, hgap spaced.after⟩

theorem isWritten_membersText (first : Spaced Literal) (others : List (Spaced Literal)) :
    ∀ c ∈ membersText first others, isWritten c := by
  have hmember := isWritten_spaced isWritten_literal
  induction others generalizing first with
  | nil =>
    rw [membersText_nil, List.forall_mem_append, List.forall_mem_singleton]
    exact ⟨hmember first, by decide⟩
  | cons next others ih =>
    rw [membersText_cons, List.forall_mem_append, List.forall_mem_cons]
    exact ⟨hmember first, by decide, ih next⟩

theorem Form.isWritten_text (form : Form) : ∀ c ∈ form.text, isWritten c := by
  cases form with
  | set first others =>
    rw [text, List.forall_mem_cons]
    exact ⟨by decide, isWritten_membersText first others⟩
  | range leftClosed left right rightClosed =>
    have hend := isWritten_spaced isWritten_bound
    rw [text, endsText, List.forall_mem_cons, List.forall_mem_append, List.forall_mem_cons,
      List.forall_mem_append, List.forall_mem_singleton]
    refine ⟨?_, hend left, by decide, hend right, ?_⟩
    · cases leftClosed <;> decide
    · cases rightClosed <;> decide

end Phrasebook.Interval
