import Phrasebook.Text.Quoted

/-!
The JSON string of a text. Quotation mark, backslash and control characters are escaped, by their
short escape where JSON has one; every other character stands for itself.
-/
namespace Phrasebook.Text

def jsonChar (c : Char) : Text :=
  if c = quotationMark ∨ c = backslash then [backslash, c]
  else if c = '\n' then [backslash, 'n']
  else if c = '\r' then [backslash, 'r']
  else if c = '\t' then [backslash, 't']
  else if c = '\x08' then [backslash, 'b']
  else if c = '\x0c' then [backslash, 'f']
  else if c.toNat < 0x20 then [backslash, 'u'] ++ hexadecimal 4 c.toNat
  else [c]

def jsonString (text : Text) : Text := [quotationMark] ++ text.flatMap jsonChar ++ [quotationMark]

theorem newline_not_mem_jsonChar (c : Char) : '\n' ∉ jsonChar c := by
  have hhex : ∀ n < 0x20, '\n' ∉ hexadecimal 4 n := by decide
  unfold jsonChar
  split
  · next h => rcases h with rfl | rfl <;> decide
  iterate 5
    split
    · decide
  split
  · next h =>
    simp only [List.mem_append, not_or]
    exact ⟨by decide, hhex _ h⟩
  · next hn _ _ _ _ _ => simpa using Ne.symm hn

/-- A JSON string is a single line. -/
theorem newline_not_mem_jsonString (text : Text) : '\n' ∉ jsonString text := by
  simp only [jsonString, List.mem_append, List.mem_flatMap, not_or, not_exists, not_and]
  exact ⟨⟨by decide, fun c _ => newline_not_mem_jsonChar c⟩, by decide⟩

end Phrasebook.Text
