import Phrasebook.Proofs.Interval.Faults
import Phrasebook.Proofs.Message.Writing

/-!
Words in brackets and braces. What stands behind an opening character is looked at before it is
known where a word ends. So a word is text, unless it begins as an infinity is spelled. A longer
word that does so is taken for a malformed interval, and its message is refused.
-/
namespace Phrasebook

open Text

/-- A text with a bracket or brace in front and a word behind it, which goes on as long as there
are letters. -/
structure BracketedWord where
  before : Gap
  opener : Char
  isOpener : Interval.isOpener opener
  inner : Gap
  word : Text
  ne_nil : word ≠ []
  isAlpha : ∀ c ∈ word, c.isAlpha
  rest : Text
  maximal : StartsWithout Char.isAlpha rest

namespace BracketedWord

def body (bracketed : BracketedWord) : Text :=
  bracketed.inner.text ++ (bracketed.word ++ bracketed.rest)

def text (bracketed : BracketedWord) : Text :=
  bracketed.before.text ++ bracketed.opener :: bracketed.body

/-- Where the scanner stops if the word begins like an infinity: at its start in a set, which
cannot hold one, and behind the three letters in a range. -/
def position (bracketed : BracketedWord) : Nat :=
  bracketed.before.text.length + 1 + bracketed.inner.text.length +
    if bracketed.opener = '\x7b' then 0 else 3

def trimmed (bracketed : BracketedWord) : BracketedWord :=
  { bracketed with
    before := .empty
    rest := trimRight bracketed.rest
    maximal := startsWithout_trimRight bracketed.maximal }

end BracketedWord

theorem not_isDigit_of_isAlpha {c : Char} (h : c.isAlpha) : c.isDigit = false := by
  by_contra hdigit
  have hcode : 0x30 ≤ c.toNat ∧ c.toNat ≤ 0x39 :=
    Char.isDigit_iff_toNat.1 (Bool.of_not_eq_false hdigit)
  have hcodes : ∀ n ∈ List.range' 0x30 10, (Char.ofNat n).isAlpha = false := by decide
  have hletter := hcodes c.toNat (List.mem_range'_1.2 (by omega))
  rw [Char.ofNat_toNat, h] at hletter
  cases hletter

namespace Interval

variable {word rest : Text}

/-- A word is taken for the beginning of an interval if it begins like an infinity. -/
theorem startsNumeric_word_iff (hne : word ≠ []) (hword : ∀ c ∈ word, c.isAlpha)
    (hrest : StartsWithout Char.isAlpha rest) :
    startsNumeric (word ++ rest) ↔ ("Inf" : Text) <+: word := by
  rw [← prefix_run_iff (List.all_eq_true.1 rfl) hrest]
  obtain ⟨c, tail, rfl⟩ := List.exists_cons_of_ne_nil hne
  have hc : c.isAlpha := hword c List.mem_cons_self
  have hdigit := not_isDigit_of_isAlpha hc
  have hminus : c ≠ '-' := ne_of_kind hc (by decide)
  have hplus : c ≠ '+' := ne_of_kind hc (by decide)
  rw [List.cons_append]
  generalize tail ++ rest = behind
  constructor
  · intro h
    have hinfinity : (infinity? (c :: behind)).isSome := by
      simpa [startsNumeric, hminus, hdigit] using h
    unfold infinity? at hinfinity
    split at hinfinity
    next heq => exact absurd (List.cons.inj heq).1 hminus
    next heq => exact absurd (List.cons.inj heq).1 hplus
    next tail heq => exact ⟨tail, heq.symm⟩
    next => cases hinfinity
  · rintro ⟨behind', h⟩
    rw [← h]
    rfl

/-- Where reading stops at a word that begins like an infinity and goes on behind it. -/
theorem inside_of_infinity (opener : Char) (gap : Gap) {c : Char} (hc : c.isAlpha)
    (behind : Text) :
    inside opener (gap.text ++ ("Inf" ++ c :: behind)) =
      .error (if opener = '\x7b' then "Inf" ++ c :: behind else c :: behind) := by
  have hvisible : trimLeft (gap.text ++ ("Inf" ++ c :: behind)) = "Inf" ++ c :: behind := by
    rw [trimLeft_gap]
    exact trimLeft_eq_self (by decide)
  by_cases hbrace : opener = '\x7b'
  · have hmembers : members (gap.text ++ ("Inf" ++ c :: behind)) =
        .error ("Inf" ++ c :: behind) := by
      rw [members_eq_upToJoint, Reader.upToJoint, hvisible]
      rfl
    rw [inside, if_pos hbrace, hmembers, if_pos hbrace]
    rfl
  · have hcomma : comma (c :: behind) = .error (c :: behind) := by
      have hne : c ≠ ',' := ne_of_kind hc (by decide)
      simp [comma, hne]
    have hendpoint : endpoint (gap.text ++ ("Inf" ++ c :: behind)) =
        .ok (.infinite false, c :: behind) := by
      rw [endpoint, hvisible]
      exact congrArg (fun rest => Except.ok (_, rest)) (trimLeft_eq_self (isBlank_of_isAlpha hc))
    rw [inside, if_neg hbrace, range, hendpoint, if_neg hbrace]
    simp only [bind, Except.bind, hcomma]

end Interval

namespace BracketedWord

variable (bracketed : BracketedWord)

theorem exists_word_cons : ∃ c tail, bracketed.word = c :: tail ∧ c.isAlpha := by
  obtain ⟨c, tail, hword⟩ := List.exists_cons_of_ne_nil bracketed.ne_nil
  exact ⟨c, tail, hword, bracketed.isAlpha c (by simp [hword])⟩

theorem trimLeft_body : trimLeft bracketed.body = bracketed.word ++ bracketed.rest := by
  obtain ⟨c, tail, hword, hc⟩ := bracketed.exists_word_cons
  rw [body, trimLeft_gap, hword]
  exact trimLeft_eq_self (isBlank_of_isAlpha hc)

theorem trimLeft_text : trimLeft bracketed.text = bracketed.opener :: bracketed.body :=
  Interval.trimLeft_joint bracketed.before (Interval.isJoint_of_isOpener bracketed.isOpener)
    bracketed.body

/-- Trimming takes off the white space in front, and none of the word. -/
theorem text_trimmed : bracketed.trimmed.text = trim bracketed.text := by
  obtain ⟨before, opener, isOpener, inner, word, hne, isAlpha, rest, maximal⟩ := bracketed
  have hopener : isBlank opener = false :=
    (startsWithout_cons _ _ []).1
      (Interval.startsWithout_of_isJoint (Interval.isJoint_of_isOpener isOpener) []).1
  have hend : trimRight (opener :: (inner.text ++ word)) = opener :: (inner.text ++ word) := by
    refine List.rdropWhile_eq_self_iff.2 fun _ => ?_
    have hlast := isAlpha _ (List.getLast_mem hne)
    simp [hne, isBlank_of_isAlpha hlast]
  have htrim := trim_gap_append before (List.cons_ne_nil _ _)
    ((startsWithout_cons _ _ _).2 hopener) hend rest
  simpa [text, body, trimmed, Gap.empty] using htrim.symm

/-- A word that does not begin like an infinity is no interval. -/
theorem scan_eq_none (h : ¬ ("Inf" : Text) <+: bracketed.word) :
    Interval.scan bracketed.text = .ok none := by
  have hnumeric : ¬ Interval.startsNumeric (trimLeft bracketed.body) := by
    rwa [trimLeft_body, Interval.startsNumeric_word_iff bracketed.ne_nil bracketed.isAlpha
      bracketed.maximal]
  rw [Interval.scan, trimLeft_text]
  simp only [Interval.shapeAt_opener bracketed.isOpener, if_neg hnumeric]

/-- A longer word that begins like an infinity is a malformed interval. -/
theorem scan_eq_error (hword : bracketed.word ≠ "Inf") (h : ("Inf" : Text) <+: bracketed.word) :
    Interval.scan bracketed.text = .error ⟨bracketed.text, bracketed.position⟩ := by
  have hnumeric : Interval.startsNumeric (trimLeft bracketed.body) := by
    rwa [trimLeft_body, Interval.startsNumeric_word_iff bracketed.ne_nil bracketed.isAlpha
      bracketed.maximal]
  obtain ⟨tail, htail⟩ := h
  cases tail with
  | nil => exact absurd (by rw [← htail, List.append_nil]) hword
  | cons c tail =>
    have hc : c.isAlpha := bracketed.isAlpha c (by simp [← htail])
    have hbody : bracketed.body =
        bracketed.inner.text ++ ("Inf" ++ c :: (tail ++ bracketed.rest)) := by
      simp [body, ← htail]
    have hinside := Interval.inside_of_infinity bracketed.opener bracketed.inner hc
      (tail ++ bracketed.rest)
    rw [← hbody] at hinside
    rw [Interval.scan, trimLeft_text]
    simp only [Interval.shapeAt_opener bracketed.isOpener, if_pos hnumeric, hinside, Except.map,
      Interval.Malformed.leaving]
    congr 2
    have hthree : ("Inf" : Text).length = 3 := rfl
    simp only [text, hbody, position]
    split <;> simp only [List.length_append, List.length_cons, hthree] <;> omega

theorem read_trim (h : ¬ ("Inf" : Text) <+: bracketed.word) :
    Clause.read (trim bracketed.text) = .ok (.standard (trim bracketed.text)) := by
  have hscan : Interval.scan (trim bracketed.text) = .ok none := by
    rw [← text_trimmed]
    exact bracketed.trimmed.scan_eq_none h
  have hlabel : dropLabel (trim bracketed.text) = trim bracketed.text := by
    refine dropLabel_eq_self fun c rest htext => ?_
    rw [← text_trimmed] at htext
    obtain rfl : bracketed.opener = c := (List.cons.inj htext).1
    rcases Interval.opener_cases bracketed.isOpener with hopener | ⟨closed, hopener⟩
    · rw [hopener]
      decide
    · rw [hopener]
      cases closed <;> decide
  simp only [Clause.read, hscan, hlabel]

/-- A bracketed word is text, no error and a standard clause of its message, unless it begins like
an infinity. If it goes on from there, then it is a malformed interval: an error of each review of
its message, which cannot be read. -/
theorem kept_iff_not_infinity (hword : bracketed.word ≠ "Inf") :
    (Interval.scan bracketed.text = .ok none ↔ ¬ ("Inf" : Text) <+: bracketed.word) ∧
    (("Inf" : Text) <+: bracketed.word →
      Interval.scan bracketed.text = .error ⟨bracketed.text, bracketed.position⟩) ∧
    ∀ (text : Text) (index : Nat),
      (Message.segments text)[index]? = some (trim bracketed.text) →
      (¬ ("Inf" : Text) <+: bracketed.word →
        (∀ language, ∀ error ∈ (Message.review text language).errors,
          error.segment ≠ some (index : Int)) ∧
        ∀ message, Message.read text = .ok message →
          message.clauses[index]? = some (.standard (trim bracketed.text))) ∧
      (("Inf" : Text) <+: bracketed.word →
        (∀ language, ∃ error ∈ (Message.review text language).errors,
          error.segment = some (index : Int) ∧ error.content = trim bracketed.text) ∧
        ∃ fault, Message.read text = .error fault) := by
  refine ⟨⟨?_, bracketed.scan_eq_none⟩, bracketed.scan_eq_error hword, ?_⟩
  · intro hscan hinfinity
    rw [bracketed.scan_eq_error hword hinfinity] at hscan
    cases hscan
  · intro text index hsegment
    constructor
    · intro hinfinity
      have hread := bracketed.read_trim hinfinity
      constructor
      · intro language error herror hindex
        obtain ⟨place, segment, fault, hplace, hscan, rfl⟩ := Message.mem_reviewErrors_iff.1 herror
        obtain rfl : place = index := Int.ofNat.inj (Option.some.inj hindex)
        obtain rfl : segment = trim bracketed.text := Option.some.inj (hplace.symm.trans hsegment)
        rw [(Clause.read_eq_error_iff _ fault).2 hscan] at hread
        cases hread
      · intro message hmessage
        obtain ⟨clause, hclause, hstandard⟩ := Message.exists_clause_of_read hmessage hsegment
        rw [hread] at hstandard
        rw [hclause, Except.ok.inj hstandard]
    · intro hinfinity
      have hscan := bracketed.trimmed.scan_eq_error hword hinfinity
      rw [text_trimmed] at hscan
      have herror : Message.malformedError _ index ∈ Message.reviewErrors text :=
        Message.mem_reviewErrors_iff.2 ⟨index, _, _, hsegment, hscan, rfl⟩
      refine ⟨fun language => ⟨_, herror, rfl, rfl⟩, ?_⟩
      cases hread : Message.read text with
      | error fault => exact ⟨fault, rfl⟩
      | ok message =>
        rw [(Message.reviewErrors_eq_nil_iff text).2 ⟨message, hread⟩] at herror
        cases herror

def beta : BracketedWord where
  before := .empty
  opener := '['
  isOpener := rfl
  inner := .space
  word := "beta"
  ne_nil := by decide
  isAlpha := List.all_eq_true.1 rfl
  rest := "] x"
  maximal := (startsWithout_cons _ _ _).2 rfl

def information : BracketedWord where
  before := .empty
  opener := '['
  isOpener := rfl
  inner := .empty
  word := "Information"
  ne_nil := by decide
  isAlpha := List.all_eq_true.1 rfl
  rest := "] x"
  maximal := (startsWithout_cons _ _ _).2 rfl

/-- One word is kept as text, the other one is taken for an infinity. -/
theorem kept_iff_not_infinity_beta :
    beta.word ≠ "Inf" ∧ information.word ≠ "Inf" ∧
    Interval.scan "[ beta] x" = .ok none ∧
    (∀ error ∈ (Message.review "[Information] x|[ beta] x" "en_US").errors,
      error.segment ≠ some 1) ∧
    ∃ error ∈ (Message.review "[Information] x|[ beta] x" "en_US").errors,
      error.segment = some 0 := by
  have hbeta : beta.word ≠ "Inf" := by decide
  have hinformation : information.word ≠ "Inf" := by decide
  obtain ⟨hscan, -, hkept⟩ := beta.kept_iff_not_infinity hbeta
  obtain ⟨-, -, hrefused⟩ := information.kept_iff_not_infinity hinformation
  have htext : ¬ ("Inf" : Text) <+: beta.word := by decide
  have hinfinity : ("Inf" : Text) <+: information.word := by decide
  obtain ⟨hclean, -⟩ := (hkept "[Information] x|[ beta] x" 1 rfl).1 htext
  obtain ⟨hfaulty, -⟩ := (hrefused "[Information] x|[ beta] x" 0 rfl).2 hinfinity
  obtain ⟨error, hmem, hsegment, -⟩ := hfaulty "en_US"
  exact ⟨hbeta, hinformation, hscan.2 htext, hclean "en_US", error, hmem, hsegment⟩

/-- A longer word than an infinity is not kept as text. -/
theorem scan_information :
    information.text = "[Information] x" ∧ information.word ≠ "Inf" ∧
    Interval.scan "[Information] x" = .error ⟨"[Information] x", 4⟩ ∧
    Message.read "[Information] x" = .error ⟨"[Information] x", 4⟩ := by
  refine ⟨rfl, by decide, rfl, rfl⟩

end BracketedWord
end Phrasebook
