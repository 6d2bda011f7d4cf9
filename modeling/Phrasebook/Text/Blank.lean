import Phrasebook.Text.Basic

/-!
White space is what has the property White_Space in Unicode, and the four information
separators. Trimming takes it off the ends of a text.
-/
namespace Phrasebook.Text

def isBlank (c : Char) : Bool :=
  let n := c.toNat
  (0x9 ≤ n && n ≤ 0xD) || (0x1C ≤ n && n ≤ 0x20) || n == 0x85 || n == 0xA0 || n == 0x1680 ||
    (0x2000 ≤ n && n ≤ 0x200A) || n == 0x2028 || n == 0x2029 || n == 0x202F || n == 0x205F ||
    n == 0x3000

def trimLeft (text : Text) : Text := text.dropWhile isBlank

def trimRight (text : Text) : Text := (text.reverse.dropWhile isBlank).reverse

def trim (text : Text) : Text := trimRight (trimLeft text)

def squeeze (text : Text) : Text := text.filter (!isBlank ·)

theorem isBlank_of_isWhitespace {c : Char} (h : c.isWhitespace) : isBlank c := by
  simp only [Char.isWhitespace, Bool.or_eq_true, decide_eq_true_eq] at h
  rcases h with ((rfl | rfl) | rfl) | rfl <;> decide

theorem length_trimLeft_le (text : Text) : (trimLeft text).length ≤ text.length :=
  (List.dropWhile_sublist isBlank).length_le

theorem trimLeft_eq_self {c : Char} {rest : Text} (h : isBlank c = false) :
    trimLeft (c :: rest) = c :: rest := by
  simp [trimLeft, h]

end Phrasebook.Text
