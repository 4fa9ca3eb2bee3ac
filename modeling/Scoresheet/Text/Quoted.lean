import Scoresheet.Text.Marks
import Scoresheet.Text.Unassigned

/-!
# Quoted text

Text between quotes, in which whatever cannot be shown as it is stands as an escape.

* `quoted` — a text between double quotes.
* `quotedChar` — a character between single quotes.
-/

namespace Scoresheet.Text

/-- Characters that show nothing: controls, blanks other than the plain one, ends of lines and
paragraphs, and characters for private use. Marks and format characters are apart. -/
def unshownRanges : List (Nat × Nat) :=
  [(0x00, 0x1F), (0x7F, 0xA0), (0x1680, 0x1680), (0x2000, 0x200A), (0x2028, 0x2029),
   (0x202F, 0x202F), (0x205F, 0x205F), (0x3000, 0x3000), (0xE000, 0xF8FF), (0xF0000, 0xFFFFD),
   (0x100000, 0x10FFFD)]

/-- Whether a character is shown as it is. -/
def isShown (c : Char) : Bool :=
  isAssigned c && !(inRanges unshownRanges c.toNat || isFormat c || isExtending c)

/-- The number of a character in braces, in hexadecimal. -/
def codeEscape (c : Char) : List Char :=
  ['\\', 'u', '\x7b'] ++ Nat.toDigits 16 c.toNat ++ ['\x7d']

/-- A character between quotes of a kind. Only a quote of that kind is escaped. -/
def quotedPart (quote : Char) (c : Char) : List Char :=
  if c = quote || c = '\\' then ['\\', c]
  else if c.toNat = 0 then ['\\', '0']
  else if c = '\n' then ['\\', 'n']
  else if c = '\r' then ['\\', 'r']
  else if c = '\t' then ['\\', 't']
  else if isShown c then [c]
  else codeEscape c

/-- **A text between double quotes.** -/
def quoted (s : String) : String :=
  String.ofList ('"' :: s.toList.flatMap (quotedPart '"') ++ ['"'])

/-- A character between single quotes. -/
def quotedChar (c : Char) : String :=
  String.ofList ('\'' :: quotedPart '\'' c ++ ['\''])

end Scoresheet.Text
