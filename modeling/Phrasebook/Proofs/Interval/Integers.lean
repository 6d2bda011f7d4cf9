import Phrasebook.Proofs.Interval.Order
import Phrasebook.Proofs.Interval.Scanning
import Phrasebook.Proofs.Number.Exact

/-!
Integers in intervals of integers. The numbers that are asked for are exact, those in the interval
are taken for the binary numbers next to them. So an interval holds the integers that it should as
long as its numbers are binary numbers themselves, as all are up to 2⁵³. A set with any other
number in it does not, and a range does not either, unless it is empty both as it is written and
as it is read.
-/
namespace Phrasebook.Interval

open Binary64 (nearest IsExact)

def Literal.ofInt (n : Int) : Literal where
  negative := n < 0
  whole :=
    { text := Text.ofNat n.natAbs
      ne_nil := Nat.toDigits_ne_nil
      isDigit := fun _ => Text.isDigit_of_mem_ofNat }
  fraction := none

theorem Literal.text_ofInt (n : Int) : (Literal.ofInt n).text = Text.ofInt n := by
  cases n with
  | ofNat n => rfl
  | negSucc n => simp [ofInt, text, unsignedText, Text.ofInt, Int.negSucc_lt_zero]

theorem Literal.value_ofInt (n : Int) : (Literal.ofInt n).value = nearest n := by
  show Binary64.ofScientific (n < 0) (Text.toNat (Text.ofNat n.natAbs)) 0 = _
  rw [Text.toNat_ofNat]
  rfl

def setText (members : List Int) : Text :=
  '\x7b' :: (Text.join [','] (members.map Text.ofInt) ++ ['\x7d'])

def rangeText (leftClosed : Bool) (left right : Int) (rightClosed : Bool) : Text :=
  leftBracket leftClosed ::
    (Text.ofInt left ++ ',' :: (Text.ofInt right ++ [rightBracket rightClosed]))

def isBetween (leftClosed : Bool) (left right : Int) (rightClosed : Bool) (n : Int) : Bool :=
  (if leftClosed then left ≤ n else left < n) && if rightClosed then n ≤ right else n < right

def nearestRange (leftClosed : Bool) (left right : Int) (rightClosed : Bool) : Shape :=
  .range (nearest left) (nearest right) leftClosed rightClosed

theorem textContains_form (form : Form) (n : Int) :
    textContains form.text (.integer n) = .ok (form.shape.contains (.ofInt n)) := by
  have hparse := parse_derivation .empty form .empty
  rw [Gap.empty, List.nil_append, List.append_nil] at hparse
  rw [textContains, hparse]
  rfl

theorem textContains_setText (first : Int) (others : List Int) (n : Int) :
    textContains (setText (first :: others)) (.integer n) =
      .ok ((first :: others).any fun m => (Point.ofInt n).same (nearest m).point) := by
  let bare (m : Int) : Spaced Literal := ⟨.empty, .ofInt m, .empty⟩
  have hbare : ∀ m, (bare m).text Literal.text = Text.ofInt m := by
    intro m
    simp [bare, Spaced.text, Gap.empty, Literal.text_ofInt]
  let form : Form := .set (bare first) (others.map bare)
  have htext : form.text = setText (first :: others) := by
    simp [form, Form.text, setText, membersText, List.map_cons, Text.join_cons, hbare,
      List.flatMap_map]
  have hshape : form.shape = .members ((first :: others).map nearest) := by
    simp [form, Form.shape, bare, Literal.value_ofInt]
  rw [← htext, textContains_form, hshape]
  exact congrArg Except.ok List.any_map

theorem textContains_rangeText (leftClosed : Bool) (left right : Int) (rightClosed : Bool)
    (n : Int) :
    textContains (rangeText leftClosed left right rightClosed) (.integer n) =
      .ok ((nearestRange leftClosed left right rightClosed).contains (.ofInt n)) := by
  let bare (m : Int) : Spaced Bound := ⟨.empty, .number (.ofInt m), .empty⟩
  have hbare : ∀ m, (bare m).text Bound.text = Text.ofInt m := by
    intro m
    simp [bare, Spaced.text, Gap.empty, Bound.text, Literal.text_ofInt]
  let form : Form := .range leftClosed (bare left) (bare right) rightClosed
  have htext : form.text = rangeText leftClosed left right rightClosed := by
    simp [form, Form.text, rangeText, endsText, hbare]
  have hshape : form.shape = nearestRange leftClosed left right rightClosed := by
    simp [form, Form.shape, nearestRange, bare, Bound.value, Literal.value_ofInt]
  rw [← htext, textContains_form, hshape]

/-- A set of integers is read exactly if and only if all of them are binary numbers. -/
theorem setText_exact_iff (first : Int) (others : List Int) :
    (∀ n : Int, textContains (setText (first :: others)) (.integer n) =
        .ok (decide (n ∈ first :: others))) ↔
      ∀ m ∈ first :: others, IsExact m := by
  simp only [textContains_setText, Except.ok.injEq]
  constructor
  · intro h m hm
    -- A member is in its own set, so some member is read as it.
    have hself := h m
    rw [decide_eq_true hm, List.any_eq_true] at hself
    obtain ⟨k, -, hsame⟩ := hself
    have hpoint : (nearest k).point = .ofInt m := Point.eq_of_same hsame
    exact Binary64.isExact_of_point_nearest hpoint
  · intro h n
    rw [Bool.eq_iff_iff, List.any_eq_true, decide_eq_true_iff]
    constructor
    · rintro ⟨m, hm, hsame⟩
      rw [Binary64.point_nearest_of_isExact (h m hm), Point.same_ofInt, decide_eq_true_iff] at hsame
      rwa [hsame]
    · intro hn
      refine ⟨n, hn, ?_⟩
      rw [Binary64.point_nearest_of_isExact (h n hn), Point.same_ofInt, decide_eq_true_iff]

/-- Whether an integer is past an end, which may count as past itself or not. -/
def isPast (closed : Bool) (bound n : Int) : Bool := if closed then bound ≤ n else bound < n

theorem isBetween_eq (leftClosed : Bool) (left right : Int) (rightClosed : Bool) (n : Int) :
    isBetween leftClosed left right rightClosed n =
      (isPast leftClosed left n && !isPast (!rightClosed) right n) := by
  have hlt : decide (n < right) = !decide (right ≤ n) :=
    (decide_eq_decide.2 Int.not_le.symm).trans decide_not
  have hle : decide (n ≤ right) = !decide (right < n) :=
    (decide_eq_decide.2 Int.not_lt.symm).trans decide_not
  cases rightClosed <;> simp [isBetween, isPast, hlt, hle]

theorem nearestRange_contains (leftClosed : Bool) (left right : Int) (rightClosed : Bool)
    (n : Int) :
    (nearestRange leftClosed left right rightClosed).contains (.ofInt n) =
      ((nearest left).point.past leftClosed (.ofInt n) &&
        !(nearest right).point.past (!rightClosed) (.ofInt n)) :=
  contains_range (Binary64.point_ofScientific_ne _ _ _) leftClosed rightClosed
    (Point.ofInt_ne_undefined n)

theorem past_ofInt (closed : Bool) (bound n : Int) :
    (Point.ofInt bound).past closed (.ofInt n) = isPast closed bound n := by
  cases closed with
  | true => exact Point.le_ofInt bound n
  | false =>
    show ((Point.ofInt bound).le (.ofInt n) && !(Point.ofInt n).le (.ofInt bound)) =
      decide (bound < n)
    rw [Point.le_ofInt, Point.le_ofInt, Bool.eq_iff_iff]
    simp only [Bool.and_eq_true, Bool.not_eq_true', decide_eq_true_eq, decide_eq_false_iff_not]
    omega

theorem isPast_mono {closed : Bool} {bound n m : Int} (hle : n ≤ m)
    (h : isPast closed bound n = true) : isPast closed bound m = true := by
  cases closed <;> simp only [isPast, Bool.false_eq_true, if_false, if_true,
    decide_eq_true_eq] at h ⊢ <;> omega

theorem past_nearest_mono {closed : Bool} {bound n m : Int} (hle : n ≤ m)
    (h : (nearest bound).point.past closed (.ofInt n) = true) :
    (nearest bound).point.past closed (.ofInt m) = true := by
  refine Point.past_mono (Binary64.point_ofScientific_ne _ _ _) (Point.ofInt_ne_undefined m)
    (Point.ofInt_ne_undefined n) ?_ h
  rw [Point.le_ofInt, decide_eq_true_iff]
  exact hle

theorem isPast_injective {closed : Bool} {a b : Int}
    (h : ∀ n, isPast closed a n = isPast closed b n) : a = b := by
  cases closed with
  | true =>
    have ha := h a
    have hb := h b
    simp only [isPast, if_true, decide_eq_decide] at ha hb
    omega
  | false =>
    have ha := h (a + 1)
    have hb := h (b + 1)
    simp only [isPast, Bool.false_eq_true, if_false, decide_eq_decide] at ha hb
    omega

/-- If an end as it is read has the same integers past it, the end is a binary number. -/
theorem isExact_of_past {closed : Bool} {bound : Int}
    (h : ∀ n, (nearest bound).point.past closed (.ofInt n) = isPast closed bound n) :
    IsExact bound := by
  rcases Binary64.point_nearest_cases bound with hlow | hhigh | ⟨m, hexact, hpoint⟩
  · have hbefore := h (bound - 1)
    rw [hlow] at hbefore
    cases closed <;> simp [isPast, Point.past, Point.lt, Point.le, Point.ofInt] at hbefore
    omega
  · have hbehind := h (bound + 1)
    rw [hhigh] at hbehind
    cases closed <;> simp [isPast, Point.past, Point.lt, Point.le, Point.ofInt] at hbehind
  · have hsame : m = bound := by
      apply isPast_injective
      intro n
      rw [← past_ofInt, ← hpoint]
      exact h n
    rwa [← hsame]

/-- A range is read exactly if and only if both its ends are binary numbers, or there is no integer
in it and none in what it is read as. -/
theorem rangeText_exact_iff (leftClosed : Bool) (left right : Int) (rightClosed : Bool) :
    (∀ n : Int, textContains (rangeText leftClosed left right rightClosed) (.integer n) =
        .ok (isBetween leftClosed left right rightClosed n)) ↔
      IsExact left ∧ IsExact right ∨
        ∀ n : Int, isBetween leftClosed left right rightClosed n = false ∧
          (nearestRange leftClosed left right rightClosed).contains (.ofInt n) = false := by
  simp only [textContains_rangeText, Except.ok.injEq]
  constructor
  · intro h
    by_cases hempty : ∀ n, isBetween leftClosed left right rightClosed n = false
    · exact Or.inr fun n => ⟨hempty n, by rw [h n, hempty n]⟩
    · left
      obtain ⟨inside, hinside⟩ := not_forall.1 hempty
      rw [Bool.not_eq_false] at hinside
      have hread := (h inside).trans hinside
      simp only [nearestRange_contains, isBetween_eq] at h hread hinside
      rw [Bool.and_eq_true, Bool.not_eq_true'] at hread hinside
      -- Before the integer inside the right ends do not matter, and behind it the left ends do not.
      have hbefore : ∀ n ≤ inside, isPast (!rightClosed) right n = false ∧
          (nearest right).point.past (!rightClosed) (.ofInt n) = false := by
        intro n hle
        exact ⟨Bool.eq_false_iff.2 (mt (isPast_mono hle) (Bool.eq_false_iff.1 hinside.2)),
          Bool.eq_false_iff.2 (mt (past_nearest_mono hle) (Bool.eq_false_iff.1 hread.2))⟩
      have hbehind : ∀ n, inside ≤ n → isPast leftClosed left n = true ∧
          (nearest left).point.past leftClosed (.ofInt n) = true :=
        fun n hle => ⟨isPast_mono hle hinside.1, past_nearest_mono hle hread.1⟩
      have hleft : ∀ n, (nearest left).point.past leftClosed (.ofInt n) =
          isPast leftClosed left n := by
        intro n
        rcases Int.le_total n inside with hle | hle
        · simpa [hbefore n hle] using h n
        · rw [(hbehind n hle).1, (hbehind n hle).2]
      have hright : ∀ n, (nearest right).point.past (!rightClosed) (.ofInt n) =
          isPast (!rightClosed) right n := by
        intro n
        rcases Int.le_total n inside with hle | hle
        · rw [(hbefore n hle).1, (hbefore n hle).2]
        · simpa [hbehind n hle] using h n
      exact ⟨isExact_of_past hleft, isExact_of_past hright⟩
  · rintro (⟨hleft, hright⟩ | hempty) n
    · rw [nearestRange_contains, isBetween_eq, Binary64.point_nearest_of_isExact hleft,
        Binary64.point_nearest_of_isExact hright, past_ofInt, past_ofInt]
    · rw [(hempty n).1, (hempty n).2]

/-- A set of integers, and a range between two integers, hold the integers that they should if the
numbers in them are binary numbers. With other numbers a set never does, and a range only if there
is no integer in it, neither as it is written nor as it is read. -/
theorem contains_integers_iff (first : Int) (others : List Int) (leftClosed : Bool)
    (left right : Int) (rightClosed : Bool) :
    ((∀ n : Int, textContains (setText (first :: others)) (.integer n) =
        .ok (decide (n ∈ first :: others))) ↔
      ∀ m ∈ first :: others, IsExact m) ∧
    ((∀ n : Int, textContains (rangeText leftClosed left right rightClosed) (.integer n) =
        .ok (isBetween leftClosed left right rightClosed n)) ↔
      IsExact left ∧ IsExact right ∨
        ∀ n : Int, isBetween leftClosed left right rightClosed n = false ∧
          (nearestRange leftClosed left right rightClosed).contains (.ofInt n) = false) :=
  ⟨setText_exact_iff first others, rangeText_exact_iff leftClosed left right rightClosed⟩

/-- The last integer before the first gap is still held exactly; a range up to the next one is
not. -/
theorem contains_integers_iff_gap :
    (∀ n : Int, textContains "\x7b-1,9007199254740992\x7d" (.integer n) =
      .ok (decide (n ∈ ([-1, 9007199254740992] : List Int)))) ∧
    ¬ ∀ n : Int, textContains "[0,9007199254740993]" (.integer n) =
      .ok (isBetween true 0 9007199254740993 true n) := by
  obtain ⟨hset, hrange⟩ := contains_integers_iff (-1) [9007199254740992] true 0 9007199254740993
    true
  have hgap : ¬ IsExact 9007199254740993 := by
    rw [← Binary64.point_nearest_eq_iff]
    decide +kernel
  constructor
  · apply hset.2
    intro m hm
    apply Binary64.isExact_of_natAbs_le
    rw [List.mem_pair] at hm
    rcases hm with rfl | rfl <;> decide
  · intro h
    rcases hrange.1 h with ⟨-, hexact⟩ | hempty
    · exact hgap hexact
    · exact absurd (hempty 0).1 (by decide)

/-- A number that is listed is not in the set, and its neighbour, which is not listed, is. -/
theorem contains_neighbour_of_member :
    setText [9007199254740993] = "\x7b9007199254740993\x7d" ∧
      textContains "\x7b9007199254740993\x7d" (.integer 9007199254740993) = .ok false ∧
      textContains "\x7b9007199254740993\x7d" (.integer 9007199254740992) = .ok true := by
  refine ⟨?_, ?_, ?_⟩ <;> decide +kernel

end Phrasebook.Interval
