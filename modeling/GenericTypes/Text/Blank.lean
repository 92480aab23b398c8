/-! # Blank characters

The characters of the Unicode property `White_Space`, as ranges of code points, and the removal of
blanks at the ends of a text. Texts are lists of characters here: every rule of this library about
text is a recursion over such a list. -/

namespace GenericTypes

/-- The ranges of code points, both ends included, that make up `White_Space`. -/
def blankRanges : List (Nat × Nat) :=
  [(0x0009, 0x000D), (0x0020, 0x0020), (0x0085, 0x0085), (0x00A0, 0x00A0), (0x1680, 0x1680),
    (0x2000, 0x200A), (0x2028, 0x2029), (0x202F, 0x202F), (0x205F, 0x205F), (0x3000, 0x3000)]

/-- Whether a code point lies in one of the given ranges. -/
def inRanges (ranges : List (Nat × Nat)) (codePoint : Nat) : Bool :=
  ranges.any fun range => range.1 ≤ codePoint && codePoint ≤ range.2

/-- Whether a character is blank, that is, has the property `White_Space`. -/
def isBlank (c : Char) : Bool :=
  inRanges blankRanges c.toNat

/-- A text without its leading blanks. -/
def trimStart (text : List Char) : List Char :=
  text.dropWhile isBlank

/-- A text without its trailing blanks. -/
def trimEnd (text : List Char) : List Char :=
  (text.reverse.dropWhile isBlank).reverse

/-- A text without the blanks at either end. -/
def trim (text : List Char) : List Char :=
  trimEnd (trimStart text)

/-- The number of bytes that a text takes in UTF-8. -/
def byteLength : List Char → Nat
  | [] => 0
  | c :: text => c.utf8Size + byteLength text

/-- The empty text takes no bytes. -/
@[simp] theorem byteLength_nil : byteLength [] = 0 := rfl

/-- A character adds its own width. -/
@[simp] theorem byteLength_cons (c : Char) (text : List Char) :
    byteLength (c :: text) = c.utf8Size + byteLength text := rfl

/-- Widths add up under concatenation. -/
@[simp] theorem byteLength_append (left right : List Char) :
    byteLength (left ++ right) = byteLength left + byteLength right := by
  induction left with
  | nil => exact (Nat.zero_add _).symm
  | cons c left ih => rw [List.cons_append, byteLength_cons, byteLength_cons, ih, Nat.add_assoc]

/-- A text never grows when its leading blanks are removed. -/
theorem length_trimStart_le (text : List Char) : (trimStart text).length ≤ text.length :=
  (List.dropWhile_suffix isBlank).length_le

/-- A text never grows when its trailing blanks are removed. -/
theorem length_trimEnd_le (text : List Char) : (trimEnd text).length ≤ text.length := by
  simpa [trimEnd] using (List.dropWhile_suffix (l := text.reverse) isBlank).length_le

/-- A text never grows when it is trimmed. -/
theorem length_trim_le (text : List Char) : (trim text).length ≤ text.length :=
  Nat.le_trans (length_trimEnd_le _) (length_trimStart_le text)

end GenericTypes
