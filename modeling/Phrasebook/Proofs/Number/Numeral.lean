import Phrasebook.Number.Decimal
import Phrasebook.Proofs.Text.Spacing

/-!
The numerals of decimals. A numeral shows the digits in front of the point and those behind it, and
perhaps an exponent, and is read for what it shows. The text of a finite decimal is a sign and such
a numeral, with all digits of the coefficient and the exponent of the last of them; so reading it
gives the decimal back.
-/
namespace Phrasebook

open Text

/-- Zeros in front do not count. -/
theorem Text.toNat_zeros (n : Nat) (digits : Text) :
    Text.toNat (List.replicate n '0' ++ digits) = Text.toNat digits := by
  induction n with
  | zero => rfl
  | succ n ih => exact ih

theorem toLower_of_isDigit {c : Char} (h : c.isDigit) : c.toLower = c := by
  have hcode : c.val.toNat ≤ 57 := by
    simp only [Char.isDigit, Bool.and_eq_true, decide_eq_true_eq, UInt32.le_iff_toNat_le] at h
    exact h.2
  refine dif_neg fun hupper => ?_
  have hletter : 65 ≤ c.val.toNat := UInt32.le_iff_toNat_le.1 hupper.1
  omega

namespace Decimal

def isNumeral (c : Char) : Bool := c.isDigit || c == '.' || c == 'E' || c == '+' || c == '-'

theorem isNumeral_of_isDigit {c : Char} (h : c.isDigit) : isNumeral c := by
  simp [isNumeral, h]

theorem lt_of_isNumeral {c : Char} (h : isNumeral c) : c.toNat < 0x80 := by
  simp only [isNumeral, Bool.or_eq_true, beq_iff_eq] at h
  rcases h with (((hdigit | rfl) | rfl) | rfl) | rfl
  · simp only [Char.isDigit, Bool.and_eq_true, decide_eq_true_eq, UInt32.le_iff_toNat_le] at hdigit
    have hnine : c.toNat ≤ 57 := hdigit.2
    omega
  all_goals decide

theorem isBlank_of_isNumeral {c : Char} (h : isNumeral c) : isBlank c = false :=
  isBlank_of_kind (by decide +kernel) h

/-- Nothing in a numeral is ignored or has another value than its own. -/
theorem plainForm?_numeral {text : Text} (h : ∀ c ∈ text, isNumeral c) :
    plainForm? text = some text := by
  have htrim : trim text = text := by
    refine (trim_eq_self_iff text).2 ⟨fun c hc => ?_, List.rdropWhile_eq_self_iff.2 fun hne => ?_⟩
    · exact isBlank_of_isNumeral (h c (List.mem_of_mem_head? hc))
    · simpa using isBlank_of_isNumeral (h _ (List.getLast_mem hne))
  have hfilter : text.filter (· != '_') = text :=
    List.filter_eq_self.2 fun c hc => bne_iff_ne.2 (ne_of_kind (h c hc) (by decide))
  rw [plainForm?, htrim, hfilter]
  clear htrim hfilter
  induction text with
  | nil => rfl
  | cons c rest ih =>
    obtain ⟨hc, hrest⟩ := List.forall_mem_cons.1 h
    rw [List.mapM_cons, ih hrest, if_pos (lt_of_isNumeral hc)]
    rfl

theorem signed_sign (negative : Bool) {c : Char} {rest : Text} (h : c.isDigit) :
    signed (sign negative ++ c :: rest) = (negative, c :: rest) := by
  cases negative with
  | true => rfl
  | false =>
    have hminus : c ≠ '-' := ne_of_kind h (by decide)
    have hplus : c ≠ '+' := ne_of_kind h (by decide)
    change signed (c :: rest) = _
    unfold signed
    split <;> simp_all

/-- What begins with a digit is not one of the words for what is no number. -/
theorem read_numeral (negative : Bool) {c : Char} {rest : Text} (hfirst : c.isDigit)
    (h : ∀ d ∈ c :: rest, isNumeral d) :
    read (sign negative ++ c :: rest) = readNumeral negative (c :: rest) := by
  have hall : ∀ d ∈ sign negative ++ c :: rest, isNumeral d := by
    cases negative with
    | true => exact List.forall_mem_cons.2 ⟨by decide, h⟩
    | false => exact h
  have hi : c ≠ 'i' := ne_of_kind hfirst (by decide)
  have hs : 's' ≠ c := (ne_of_kind hfirst (by decide)).symm
  have hn : 'n' ≠ c := (ne_of_kind hfirst (by decide)).symm
  rw [read, plainForm?_numeral hall]
  dsimp only
  rw [signed_sign negative hfirst]
  simp [toLower_of_isDigit hfirst, List.isPrefixOf, hi, hs, hn]

def exponentText (power : Int) : Text :=
  'E' :: ((if power < 0 then "-" else "+") ++ Text.ofNat power.natAbs)

theorem exponentPart?_exponentText (power : Int) :
    exponentPart? (exponentText power) = some power := by
  have hne : Text.ofNat power.natAbs ≠ [] := Nat.toDigits_ne_nil
  have hall : (Text.ofNat power.natAbs).all Char.isDigit :=
    List.all_eq_true.2 fun _ => isDigit_of_mem_ofNat
  have hsigned : signed ((if power < 0 then "-" else "+") ++ Text.ofNat power.natAbs) =
      (decide (power < 0), Text.ofNat power.natAbs) := by
    by_cases h : power < 0 <;> simp [h, signed]
  rw [exponentText, exponentPart?, hsigned]
  dsimp only
  rw [if_pos ⟨by decide, hne, hall⟩, Text.toNat_ofNat, Option.some.injEq]
  by_cases h : power < 0
  · rw [if_pos (decide_eq_true h)]
    omega
  · rw [if_neg (by simpa using h)]
    omega

def fractionParts (text : Text) : Text × Text :=
  match text with
  | '.' :: rest => (rest.takeWhile Char.isDigit, rest.dropWhile Char.isDigit)
  | _ => ([], text)

theorem readNumeral_eq (negative : Bool) (text : Text) :
    readNumeral negative text =
      let whole := text.takeWhile Char.isDigit
      let parts := fractionParts (text.dropWhile Char.isDigit)
      match exponentPart? parts.2 with
      | none => .error .form
      | some power =>
        if whole ++ parts.1 = [] then .error .form
        else bounded negative (Text.toNat (whole ++ parts.1)) (power - parts.1.length) := rfl

/-- An unsigned number as it is written: digits, perhaps more of them behind a point, and perhaps
an exponent. -/
structure Numeral where
  whole : Text
  fraction : Text
  power? : Option Int
  ne_nil : whole ≠ []
  isDigit : ∀ c ∈ whole ++ fraction, c.isDigit

namespace Numeral

variable (numeral : Numeral)

def fractionText : Text := if numeral.fraction = [] then [] else '.' :: numeral.fraction

def powerText : Text := (numeral.power?.map exponentText).getD []

def text : Text := numeral.whole ++ (numeral.fractionText ++ numeral.powerText)

def coefficient : Nat := Text.toNat (numeral.whole ++ numeral.fraction)

def exponent : Int := numeral.power?.getD 0 - numeral.fraction.length

def Shows (coefficient : Nat) (exponent : Int) : Prop :=
  numeral.coefficient = coefficient ∧ numeral.exponent = exponent

theorem startsWithout_powerText : StartsWithout Char.isDigit numeral.powerText := by
  unfold powerText
  cases numeral.power? with
  | none => exact startsWithout_nil _
  | some power => exact (startsWithout_cons ..).2 (by decide)

theorem exponentPart?_powerText :
    exponentPart? numeral.powerText = some (numeral.power?.getD 0) := by
  unfold powerText
  cases numeral.power? with
  | none => rfl
  | some power => exact exponentPart?_exponentText power

theorem fractionParts_text :
    fractionParts (numeral.fractionText ++ numeral.powerText) =
      (numeral.fraction, numeral.powerText) := by
  unfold fractionText
  split
  · next hnone =>
    rw [hnone, List.nil_append]
    unfold powerText
    cases numeral.power? <;> rfl
  · have hfraction : ∀ c ∈ numeral.fraction, c.isDigit :=
      fun c hc => numeral.isDigit c (List.mem_append_right _ hc)
    rw [List.cons_append, fractionParts, takeWhile_run hfraction numeral.startsWithout_powerText,
      dropWhile_run hfraction numeral.startsWithout_powerText]

theorem readNumeral_text (negative : Bool) :
    readNumeral negative numeral.text = bounded negative numeral.coefficient numeral.exponent := by
  have hwhole : ∀ c ∈ numeral.whole, c.isDigit :=
    fun c hc => numeral.isDigit c (List.mem_append_left _ hc)
  have hrest : StartsWithout Char.isDigit (numeral.fractionText ++ numeral.powerText) := by
    unfold fractionText
    split
    · exact numeral.startsWithout_powerText
    · exact (startsWithout_cons ..).2 (by decide)
  have hne : numeral.whole ++ numeral.fraction ≠ [] :=
    List.append_ne_nil_of_left_ne_nil numeral.ne_nil _
  rw [readNumeral_eq, text, takeWhile_run hwhole hrest, dropWhile_run hwhole hrest,
    fractionParts_text]
  dsimp only
  rw [exponentPart?_powerText]
  exact if_neg hne

theorem isNumeral_of_mem_text : ∀ c ∈ numeral.text, isNumeral c := by
  have hdigits : ∀ c ∈ numeral.whole ++ numeral.fraction, isNumeral c :=
    fun c hc => isNumeral_of_isDigit (numeral.isDigit c hc)
  obtain ⟨hwhole, hfraction⟩ := List.forall_mem_append.1 hdigits
  refine List.forall_mem_append.2 ⟨hwhole, List.forall_mem_append.2 ⟨?_, ?_⟩⟩
  · unfold fractionText
    split
    · simp
    · exact List.forall_mem_cons.2 ⟨by decide, hfraction⟩
  · unfold powerText
    cases numeral.power? with
    | none => simp
    | some power =>
      have hsign : ∀ c ∈ ((if power < 0 then "-" else "+" : String) : Text), isNumeral c := by
        split <;> exact List.forall_mem_singleton.2 (by decide)
      refine List.forall_mem_cons.2 ⟨by decide, List.forall_mem_append.2 ⟨hsign, ?_⟩⟩
      exact fun _ hc => isNumeral_of_isDigit (isDigit_of_mem_ofNat hc)

theorem read_text (negative : Bool) :
    read (sign negative ++ numeral.text) =
      bounded negative numeral.coefficient numeral.exponent := by
  obtain ⟨c, rest, hwhole⟩ := List.exists_cons_of_ne_nil numeral.ne_nil
  have hfirst : c.isDigit := numeral.isDigit c (by simp [hwhole])
  have htext : numeral.text = c :: (rest ++ (numeral.fractionText ++ numeral.powerText)) := by
    rw [text, hwhole, List.cons_append]
  have hall := numeral.isNumeral_of_mem_text
  rw [← readNumeral_text, htext]
  rw [htext] at hall
  exact read_numeral negative hfirst hall

end Numeral

theorem exists_numeral_positional (coefficient : Nat) {exponent : Int} (h : exponent ≤ 0) :
    ∃ numeral : Numeral, numeral.text = positional coefficient exponent ∧
      numeral.Shows coefficient exponent := by
  have hdigits : ∀ c ∈ Text.ofNat coefficient, c.isDigit := fun _ => isDigit_of_mem_ofNat
  unfold positional
  dsimp only
  split
  · next hnonneg =>
    obtain rfl : exponent = 0 := Int.le_antisymm h hnonneg
    let numeral : Numeral :=
      ⟨Text.ofNat coefficient, [], none, Nat.toDigits_ne_nil, by simpa using hdigits⟩
    refine ⟨numeral, ?_, ?_, rfl⟩
    · simp [numeral, Numeral.text, Numeral.fractionText, Numeral.powerText]
    · simp [numeral, Numeral.coefficient, Text.toNat_ofNat]
  · -- the zeros in front leave one digit at least before the point
    generalize hplaces : (-exponent).toNat = places
    generalize hfilled : List.replicate (places + 1 - (Text.ofNat coefficient).length) '0' ++
      Text.ofNat coefficient = filled
    have hlength : places < filled.length := by
      rw [← hfilled, List.length_append, List.length_replicate]
      omega
    have hall : ∀ c ∈ filled, c.isDigit := by
      rw [← hfilled]
      refine List.forall_mem_append.2 ⟨fun c hc => ?_, hdigits⟩
      rw [(List.mem_replicate.1 hc).2]
      decide
    have hwhole : filled.take (filled.length - places) ≠ [] :=
      List.ne_nil_of_length_pos (by rw [List.length_take]; omega)
    have hfraction : (filled.drop (filled.length - places)).length = places := by
      rw [List.length_drop]
      omega
    have hpoint : filled.drop (filled.length - places) ≠ [] :=
      List.ne_nil_of_length_pos (by omega)
    let numeral : Numeral :=
      ⟨filled.take (filled.length - places), filled.drop (filled.length - places), none, hwhole,
        by rwa [List.take_append_drop]⟩
    refine ⟨numeral, ?_, ?_, ?_⟩
    · simp [numeral, Numeral.text, Numeral.fractionText, Numeral.powerText, hpoint]
    · rw [Numeral.coefficient, List.take_append_drop, ← hfilled, Text.toNat_zeros, Text.toNat_ofNat]
    · rw [Numeral.exponent, hfraction, ← hplaces]
      change (0 : Int) - (-exponent).toNat = exponent
      omega

/-- The text of a decimal without its sign shows the digits of the coefficient, perhaps behind
zeros, and the exponent. -/
theorem exists_numeral (coefficient : Nat) (exponent : Int) :
    ∃ numeral : Numeral, numeral.text = magnitudeText coefficient exponent ∧
      numeral.Shows coefficient exponent := by
  unfold magnitudeText
  dsimp only
  split
  · next hplain => exact exists_numeral_positional coefficient hplain.1
  obtain ⟨c, rest, hcoefficient⟩ :=
    List.exists_cons_of_ne_nil (Nat.toDigits_ne_nil (n := coefficient) (b := 10))
  have hofNat : Text.ofNat coefficient = c :: rest := hcoefficient
  have hall : ∀ d ∈ c :: rest, d.isDigit := by
    rw [← hofNat]
    exact fun _ => isDigit_of_mem_ofNat
  let numeral : Numeral :=
    ⟨[c], rest, some (leadingExponent coefficient exponent), List.cons_ne_nil c [], hall⟩
  refine ⟨numeral, ?_, ?_, ?_⟩
  · rw [hofNat]
    cases rest <;>
      simp [numeral, Numeral.text, Numeral.fractionText, Numeral.powerText, exponentText]
  · change Text.toNat (c :: rest) = coefficient
    rw [← hofNat, Text.toNat_ofNat]
  · change leadingExponent coefficient exponent - (rest.length : Int) = exponent
    rw [leadingExponent, digitCount, hofNat, List.length_cons]
    omega

/-- Reading the text of a finite decimal gives the decimal back, unless its exponent is beyond the
bounds. -/
theorem read_text (negative : Bool) (coefficient : Nat) (exponent : Int) :
    read (finite negative coefficient exponent).text = bounded negative coefficient exponent := by
  obtain ⟨numeral, htext, rfl, rfl⟩ := exists_numeral coefficient exponent
  rw [text, ← htext, numeral.read_text]

end Decimal
end Phrasebook
