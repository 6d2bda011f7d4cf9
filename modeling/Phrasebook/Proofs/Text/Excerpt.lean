import Mathlib.Algebra.Group.Nat.Defs
import Mathlib.Data.List.Basic
import Phrasebook.Text.JsonString

/-!
What an excerpt of a text tells. A text that is cut shows its beginning and that there was more of
it. A quoted text shows every character and where it ends, so that it can be read back whatever is
written behind it; so does a JSON string.
-/
namespace Phrasebook.Text

/-- Texts that are the same as far as a limit: they are equal, or both go on behind it after the
same beginning. -/
def AgreeUpTo (limit : Nat) (a b : Text) : Prop :=
  a = b ∨ (limit < a.length ∧ limit < b.length ∧ a.take limit = b.take limit)

instance (limit : Nat) (a b : Text) : Decidable (AgreeUpTo limit a b) :=
  inferInstanceAs (Decidable (_ ∨ _))

/-- A text that is not cut is not taken for one that is, because the dots make it too long. -/
theorem ellipsis_ne {limit : Nat} {a b : Text} (ha : a.length ≤ limit) (hb : limit < b.length) :
    a.ellipsis limit ≠ b.ellipsis limit := by
  intro h
  have hlength := congrArg List.length h
  rw [ellipsis, if_pos ha, ellipsis, if_neg (Nat.not_le.2 hb), List.length_append,
    List.length_take] at hlength
  have hdots : ("..." : Text).length = 3 := rfl
  omega

/-- A cut text tells what the text is up to the limit, and nothing else. -/
theorem ellipsis_eq_iff {limit : Nat} {a b : Text} :
    a.ellipsis limit = b.ellipsis limit ↔ AgreeUpTo limit a b := by
  constructor
  · intro h
    by_cases ha : a.length ≤ limit
    · by_cases hb : b.length ≤ limit
      · rw [ellipsis, if_pos ha, ellipsis, if_pos hb] at h
        exact Or.inl h
      · exact absurd h (ellipsis_ne ha (Nat.not_le.1 hb))
    · by_cases hb : b.length ≤ limit
      · exact absurd h.symm (ellipsis_ne hb (Nat.not_le.1 ha))
      · rw [ellipsis, if_neg ha, ellipsis, if_neg hb] at h
        exact Or.inr ⟨Nat.not_le.1 ha, Nat.not_le.1 hb, List.append_cancel_right h⟩
  · rintro (rfl | ⟨ha, hb, hsame⟩)
    · rfl
    · rw [ellipsis, if_neg (Nat.not_le.2 ha), ellipsis, if_neg (Nat.not_le.2 hb), hsame]

def hexDigit (c : Char) : Nat := ((List.range 16).map Nat.digitChar).idxOf c

def hexValue (digits : Text) : Nat := digits.foldl (fun n c => 16 * n + hexDigit c) 0

theorem hexDigit_digitChar {d : Nat} (h : d < 16) : hexDigit d.digitChar = d := by
  have hall : ∀ d < 16, hexDigit (Nat.digitChar d) = d := by decide
  exact hall d h

theorem hexValue_concat (digits : Text) (c : Char) :
    hexValue (digits ++ [c]) = 16 * hexValue digits + hexDigit c := by
  rw [hexValue, List.foldl_concat]
  rfl

theorem hexValue_toDigits (n : Nat) : hexValue (Nat.toDigits 16 n) = n := by
  induction n using Nat.strongRecOn with
  | ind n ih =>
    by_cases h : n < 16
    · rw [Nat.toDigits_of_lt_base h]
      simp [hexValue, hexDigit_digitChar h]
    · have hlast : n % 16 < 16 := Nat.mod_lt n (by decide)
      rw [Nat.toDigits_of_base_le (by decide) (by omega), hexValue_concat, ih _ (by omega),
        hexDigit_digitChar hlast]
      omega

theorem hexValue_hexadecimal (width n : Nat) : hexValue (hexadecimal width n) = n := by
  have hzeros : ∀ k, (List.replicate k '0').foldl (fun n c => 16 * n + hexDigit c) 0 = 0 := by
    intro k
    induction k with
    | zero => rfl
    | succ k ih => exact ih
  rw [hexadecimal, hexValue, List.foldl_append, hzeros]
  exact hexValue_toDigits n

theorem length_hexadecimal {width n : Nat} (hwidth : 0 < width) (h : n < 16 ^ width) :
    (hexadecimal width n).length = width := by
  have hdigits : (Nat.toDigits 16 n).length ≤ width :=
    (Nat.length_toDigits_le_iff (by decide) hwidth).2 h
  rw [hexadecimal, List.length_append, List.length_replicate]
  omega

def readCode (width : Nat) (text : Text) : Char × Text :=
  (Char.ofNat (hexValue (text.take width)), text.drop width)

theorem readCode_hexadecimal {width : Nat} (hwidth : 0 < width) {c : Char}
    (h : c.toNat < 16 ^ width) (rest : Text) :
    readCode width (hexadecimal width c.toNat ++ rest) = (c, rest) := by
  have hlength := length_hexadecimal hwidth h
  rw [readCode, List.take_left' hlength, List.drop_left' hlength, hexValue_hexadecimal,
    Char.ofNat_toNat]

def readChar? : Text → Option (Char × Text)
  | '\x5c' :: 'n' :: rest => some ('\n', rest)
  | '\x5c' :: 'r' :: rest => some ('\r', rest)
  | '\x5c' :: 't' :: rest => some ('\t', rest)
  | '\x5c' :: 'x' :: rest => some (readCode 2 rest)
  | '\x5c' :: 'u' :: rest => some (readCode 4 rest)
  | '\x5c' :: 'U' :: rest => some (readCode 8 rest)
  | '\x5c' :: c :: rest => some (c, rest)
  | c :: rest => some (c, rest)
  | [] => none

theorem readChar?_plain {c : Char} (h : c ≠ backslash) (rest : Text) :
    readChar? (c :: rest) = some (c, rest) := by
  rw [readChar?]
  -- what is left are the cases that begin with a backslash
  all_goals
    intros
    contradiction

/-- What is escaped character by character and then closed by a quote can be told from what is
written behind it, if each character can be read back and none begins with the quote itself. -/
theorem escaped_append_inj {escape : Char → Text} {read? : Text → Option (Char × Text)}
    {quote : Char} (hread : ∀ c rest, read? (escape c ++ rest) = some (c, rest))
    (hquote : ∀ c rest, (escape c ++ rest).head? ≠ some quote) {a b rest rest' : Text}
    (h : a.flatMap escape ++ quote :: rest = b.flatMap escape ++ quote :: rest') :
    a = b ∧ rest = rest' := by
  induction a generalizing b with
  | nil =>
    cases b with
    | nil => exact ⟨rfl, (List.cons.inj h).2⟩
    | cons d b =>
      rw [List.flatMap_cons, List.append_assoc] at h
      exact absurd (congrArg List.head? h).symm (hquote d _)
  | cons c a ih =>
    cases b with
    | nil =>
      rw [List.flatMap_cons, List.append_assoc] at h
      exact absurd (congrArg List.head? h) (hquote c _)
    | cons d b =>
      have hfirst := congrArg read? h
      rw [List.flatMap_cons, List.append_assoc, hread, List.flatMap_cons, List.append_assoc,
        hread] at hfirst
      obtain ⟨rfl, hbody⟩ := Prod.mk.inj (Option.some.inj hfirst)
      obtain ⟨rfl, hrest⟩ := ih hbody
      exact ⟨rfl, hrest⟩

theorem toNat_lt (c : Char) : c.toNat < 16 ^ 8 := by
  have hvalid := c.valid
  simp only [UInt32.isValidChar, Nat.isValidChar] at hvalid
  have hcode : c.toNat = c.val.toNat := rfl
  omega

theorem quoteFor_eq (text : Text) : quoteFor text = apostrophe ∨ quoteFor text = quotationMark := by
  unfold quoteFor
  split
  · exact Or.inr rfl
  · exact Or.inl rfl

section Quotes

variable {quote : Char} (hquote : quote = apostrophe ∨ quote = quotationMark)

include hquote

theorem readChar?_quotedChar (c : Char) (rest : Text) :
    readChar? (quotedChar quote c ++ rest) = some (c, rest) := by
  unfold quotedChar
  split
  · next h =>
    rcases h with rfl | rfl
    · rcases hquote with rfl | rfl <;> rfl
    · rfl
  · next hplain =>
    iterate 3
      split
      · next h => rw [h]; rfl
    split
    · exact readChar?_plain (fun h => hplain (Or.inr h)) rest
    split
    · next h => exact congrArg some (readCode_hexadecimal (by decide) h rest)
    split
    · next h => exact congrArg some (readCode_hexadecimal (by decide) h rest)
    · exact congrArg some (readCode_hexadecimal (by decide) (toNat_lt c) rest)

/-- What is quoted never begins with the quote itself. -/
theorem head?_quotedChar_ne (c : Char) (rest : Text) :
    (quotedChar quote c ++ rest).head? ≠ some quote := by
  have hbackslash : backslash ≠ quote := by
    rcases hquote with rfl | rfl <;> decide
  unfold quotedChar
  split
  · simpa using hbackslash
  · next hplain =>
    iterate 3
      split
      · simpa using hbackslash
    split
    · simpa using fun h => hplain (Or.inl h)
    iterate 2
      split
      · simpa using hbackslash
    simpa using hbackslash

theorem quotedChars_append_inj {a b rest rest' : Text}
    (h : a.flatMap (quotedChar quote) ++ quote :: rest =
      b.flatMap (quotedChar quote) ++ quote :: rest') : a = b ∧ rest = rest' :=
  escaped_append_inj (readChar?_quotedChar hquote) (head?_quotedChar_ne hquote) h

end Quotes

/-- A quoted text can be told from what is written behind it. -/
theorem quoted_append_inj {a b rest rest' : Text} (h : a.quoted ++ rest = b.quoted ++ rest') :
    a = b ∧ rest = rest' := by
  simp only [quoted, List.append_assoc, List.singleton_append] at h
  obtain ⟨hquote, hbody⟩ := List.cons.inj h
  rw [hquote] at hbody
  exact quotedChars_append_inj (quoteFor_eq b) hbody

def readJsonChar? : Text → Option (Char × Text)
  | '\x5c' :: 'n' :: rest => some ('\n', rest)
  | '\x5c' :: 'r' :: rest => some ('\r', rest)
  | '\x5c' :: 't' :: rest => some ('\t', rest)
  | '\x5c' :: 'b' :: rest => some ('\x08', rest)
  | '\x5c' :: 'f' :: rest => some ('\x0c', rest)
  | '\x5c' :: 'u' :: rest => some (readCode 4 rest)
  | '\x5c' :: c :: rest => some (c, rest)
  | c :: rest => some (c, rest)
  | [] => none

theorem readJsonChar?_jsonChar (c : Char) (rest : Text) :
    readJsonChar? (jsonChar c ++ rest) = some (c, rest) := by
  unfold jsonChar
  split
  · next h => rcases h with rfl | rfl <;> rfl
  · next hplain =>
    iterate 5
      split
      · next h => rw [h]; rfl
    split
    · next h =>
      have hcode : c.toNat < 16 ^ 4 := Nat.lt_trans h (by decide)
      exact congrArg some (readCode_hexadecimal (by decide) hcode rest)
    · have hne : c ≠ backslash := fun h => hplain (Or.inr h)
      rw [List.singleton_append, readJsonChar?]
      all_goals
        intros
        contradiction

/-- No character is written in a JSON string so that it looks like the end of it. -/
theorem head?_jsonChar_ne (c : Char) (rest : Text) :
    (jsonChar c ++ rest).head? ≠ some quotationMark := by
  have hbackslash : backslash ≠ quotationMark := by decide
  unfold jsonChar
  split
  · simpa using hbackslash
  · next hplain =>
    iterate 6
      split
      · simpa using hbackslash
    simpa using fun h => hplain (Or.inl h)

/-- A JSON string can be told from what is written behind it. -/
theorem jsonString_append_inj {a b rest rest' : Text}
    (h : a.jsonString ++ rest = b.jsonString ++ rest') : a = b ∧ rest = rest' := by
  simp only [jsonString, List.append_assoc, List.singleton_append] at h
  exact escaped_append_inj readJsonChar?_jsonChar head?_jsonChar_ne (List.cons.inj h).2

end Phrasebook.Text
