import GenericTypes.Text.Blank
import GenericTypes.Text.Marks
import GenericTypes.Text.Unassigned

/-! # Quoted strings in debug texts

A debug text shows a string between double quotes. A quote and a backslash are escaped by a
backslash, the common control characters by a letter, and characters that print nothing of their own
by their code point in hexadecimal. -/

namespace GenericTypes

/-- The ranges of code points, both ends included, of control characters, format characters, fillers
and the private use areas. -/
def invisibleRanges : List (Nat × Nat) :=
  [(0x0000, 0x001F), (0x007F, 0x009F), (0x00AD, 0x00AD), (0x0600, 0x0605), (0x061C, 0x061C),
    (0x06DD, 0x06DD), (0x070F, 0x070F), (0x0890, 0x0891), (0x08E2, 0x08E2), (0x115F, 0x1160),
    (0x180E, 0x180E), (0x200B, 0x200F), (0x202A, 0x202E), (0x2060, 0x2064), (0x2066, 0x206F),
    (0x3164, 0x3164), (0xE000, 0xF8FF), (0xFEFF, 0xFEFF), (0xFFA0, 0xFFA0), (0xFFF9, 0xFFFB),
    (0x110BD, 0x110BD), (0x110CD, 0x110CD), (0x13430, 0x1343F), (0x1BCA0, 0x1BCA3),
    (0x1D173, 0x1D17A), (0xE0001, 0xE0001), (0xE0020, 0xE007F), (0xF0000, 0xFFFFD),
    (0x100000, 0x10FFFD)]

/-- Whether a quoted string shows a character by its code point: a blank other than the space, an
invisible character, a mark, or a code point without a character. -/
def isInvisible (c : Char) : Bool :=
  c != ' ' && (isBlank c || inRanges invisibleRanges c.toNat || inRanges markRanges c.toNat
    || inRanges unassignedRanges c.toNat)

/-- How a quoted string shows one character. -/
def quotedChar (c : Char) : List Char :=
  match c with
  | '"' => ['\\', '"']
  | '\\' => ['\\', '\\']
  | '\n' => ['\\', 'n']
  | '\r' => ['\\', 'r']
  | '\t' => ['\\', 't']
  | '\x00' => ['\\', '0']
  | c =>
    if isInvisible c then
      ['\\', 'u', '\x7b'] ++ Nat.toDigits 16 c.toNat ++ ['\x7d']
    else [c]

/-- A string between double quotes, as debug texts show it. -/
def quoted (s : String) : String :=
  String.ofList ('"' :: (s.toList.flatMap quotedChar ++ ['"']))

end GenericTypes
