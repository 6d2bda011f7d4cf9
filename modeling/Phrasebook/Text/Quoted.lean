import Phrasebook.Text.Printable

/-!
The quoted form of a text shows where it begins and ends and spells what cannot be seen. The
apostrophe quotes, unless the text holds one and no quotation mark. A character that is not
printable is written by its code in the shortest form that fits.
-/
namespace Phrasebook.Text

def hexadecimal (width n : Nat) : Text :=
  let digits := Nat.toDigits 16 n
  List.replicate (width - digits.length) '0' ++ digits

def apostrophe : Char := '\x27'

def quotationMark : Char := '\x22'

def backslash : Char := '\x5c'

/-- The quotation mark is used for the texts that hold an apostrophe and no quotation mark. -/
def quoteFor (text : Text) : Char :=
  if text.contains apostrophe && !text.contains quotationMark then quotationMark else apostrophe

def quotedChar (quote : Char) (c : Char) : Text :=
  if c = quote ∨ c = backslash then [backslash, c]
  else if c = '\n' then [backslash, 'n']
  else if c = '\r' then [backslash, 'r']
  else if c = '\t' then [backslash, 't']
  else if isPrintable c then [c]
  else if c.toNat < 0x100 then [backslash, 'x'] ++ hexadecimal 2 c.toNat
  else if c.toNat < 0x10000 then [backslash, 'u'] ++ hexadecimal 4 c.toNat
  else [backslash, 'U'] ++ hexadecimal 8 c.toNat

def quoted (text : Text) : Text :=
  let quote := quoteFor text
  [quote] ++ text.flatMap (quotedChar quote) ++ [quote]

end Phrasebook.Text
