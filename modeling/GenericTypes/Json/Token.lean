/-! # Tokens of JSON text

JSON text as a list of tokens. Blanks between tokens are dropped. A string token keeps its content,
or nothing when an escape in it stands for half of a surrogate pair without the other half: such a
string may stand where nobody reads it, but it has no content. -/

namespace GenericTypes.Json

/-- A token of JSON text. -/
inductive Token
  | openBrace
  | closeBrace
  | openBracket
  | closeBracket
  | colon
  | comma
  | null
  | bool (value : Bool)
  /-- A number as it is written. -/
  | number (lexeme : List Char)
  /-- A string, with its content if it has one. -/
  | string (content : Option String)
  deriving DecidableEq, Repr

/-- One item between the quotes of a string: a character, or a UTF-16 unit given by its number. -/
inductive StringItem
  | char (c : Char)
  | codeUnit (value : Nat)

/-- What is left of a text after something at its start was read, at least `n` characters. -/
abbrev Rest (n : Nat) (text : List Char) :=
  { rest : List Char // rest.length + n ≤ text.length }

/-- The value of a hexadecimal digit. -/
def hexDigit? (c : Char) : Option Nat :=
  if c.isDigit then some (c.toNat - '0'.toNat)
  else if 'a' ≤ c ∧ c ≤ 'f' then some (c.toNat - 'a'.toNat + 10)
  else if 'A' ≤ c ∧ c ≤ 'F' then some (c.toNat - 'A'.toNat + 10)
  else none

/-- The number given by four hexadecimal digits. -/
def codeUnit? (a b c d : Char) : Option Nat := do
  return (((← hexDigit? a) * 16 + (← hexDigit? b)) * 16 + (← hexDigit? c)) * 16 + (← hexDigit? d)

/-- The character that a backslash and a letter stand for. -/
def escaped? : Char → Option Char
  | '"' => some '"'
  | '\\' => some '\\'
  | '/' => some '/'
  | 'b' => some '\x08'
  | 'f' => some '\x0c'
  | 'n' => some '\n'
  | 'r' => some '\r'
  | 't' => some '\t'
  | _ => none

/-- Reads the items of a string up to the closing quote. Control characters have to be escaped. -/
def stringItems? : (text : List Char) → Option (List StringItem × Rest 1 text)
  | [] => none
  | '"' :: rest => some ([], ⟨rest, by simp⟩)
  | '\\' :: 'u' :: a :: b :: c :: d :: rest => do
    let unit ← codeUnit? a b c d
    let (items, ⟨rest, shorter⟩) ← stringItems? rest
    return (.codeUnit unit :: items, ⟨rest, by simp only [List.length_cons]; omega⟩)
  | '\\' :: letter :: rest => do
    let c ← escaped? letter
    let (items, ⟨rest, shorter⟩) ← stringItems? rest
    return (.char c :: items, ⟨rest, by simp only [List.length_cons]; omega⟩)
  | c :: rest =>
    if c.toNat < 0x20 || c == '\\' then none
    else do
      let (items, ⟨rest, shorter⟩) ← stringItems? rest
      return (.char c :: items, ⟨rest, by simp only [List.length_cons]; omega⟩)

/-- Whether a UTF-16 unit is the first half of a surrogate pair. -/
def isHighSurrogate (unit : Nat) : Bool :=
  0xD800 ≤ unit && unit ≤ 0xDBFF

/-- Whether a UTF-16 unit is the second half of a surrogate pair. -/
def isLowSurrogate (unit : Nat) : Bool :=
  0xDC00 ≤ unit && unit ≤ 0xDFFF

/-- The characters that the items of a string stand for. Two units in a row may form a pair; half a
pair alone stands for nothing. -/
def charsOfItems? : List StringItem → Option (List Char)
  | [] => some []
  | .char c :: rest => (charsOfItems? rest).map (c :: ·)
  | .codeUnit high :: .codeUnit low :: rest =>
    if isHighSurrogate high then
      if isLowSurrogate low then
        (charsOfItems? rest).map
          (Char.ofNat (0x10000 + (high - 0xD800) * 0x400 + (low - 0xDC00)) :: ·)
      else none
    else if isLowSurrogate high then none
    else (charsOfItems? (.codeUnit low :: rest)).map (Char.ofNat high :: ·)
  | .codeUnit unit :: rest =>
    if isHighSurrogate unit || isLowSurrogate unit then none
    else (charsOfItems? rest).map (Char.ofNat unit :: ·)

/-- Reads the digits at the start of a text, at least one. -/
def digits? (text : List Char) : Option (List Char × List Char) :=
  match text.takeWhile Char.isDigit with
  | [] => none
  | digits => some (digits, text.dropWhile Char.isDigit)

/-- Reads the whole part of a number. It starts with a zero only when it is zero. -/
def wholePart? : List Char → Option (List Char × List Char)
  | '0' :: rest => some (['0'], rest)
  | text => digits? text

/-- Reads the fraction of a number, if there is one. -/
def fractionPart? : List Char → Option (List Char × List Char)
  | '.' :: rest => (digits? rest).map fun (digits, rest) => ('.' :: digits, rest)
  | text => some ([], text)

/-- Reads the exponent of a number, if there is one. -/
def exponentPart? : List Char → Option (List Char × List Char)
  | mark :: rest =>
    if mark == 'e' || mark == 'E' then
      match rest with
      | sign :: digits =>
        if sign == '+' || sign == '-' then
          (digits? digits).map fun (digits, rest) => (mark :: sign :: digits, rest)
        else (digits? rest).map fun (digits, rest) => (mark :: digits, rest)
      | [] => none
    else some ([], mark :: rest)
  | [] => some ([], [])

/-- Reads a number at the start of a text: its characters and what follows them. -/
def number? (text : List Char) : Option (List Char × List Char) := do
  let (sign, unsigned) := match text with
    | '-' :: rest => (['-'], rest)
    | text => ([], text)
  let (whole, rest) ← wholePart? unsigned
  let (fraction, rest) ← fractionPart? rest
  let (exponent, rest) ← exponentPart? rest
  return (sign ++ whole ++ fraction ++ exponent, rest)

/-- Digits and what follows them make up the text. -/
theorem append_of_digits? {text digits rest : List Char}
    (read : digits? text = some (digits, rest)) : digits ++ rest = text ∧ digits ≠ [] := by
  unfold digits? at read
  split at read
  · simp at read
  · rename_i nonempty
    simp only [Option.some.injEq, Prod.mk.injEq] at read
    obtain ⟨rfl, rfl⟩ := read
    exact ⟨List.takeWhile_append_dropWhile, nonempty⟩

/-- A whole part and what follows it make up the text. -/
theorem append_of_wholePart? {text whole rest : List Char}
    (read : wholePart? text = some (whole, rest)) : whole ++ rest = text ∧ whole ≠ [] := by
  unfold wholePart? at read
  split at read
  · simp only [Option.some.injEq, Prod.mk.injEq] at read
    simp [← read.1, ← read.2]
  · exact append_of_digits? read

/-- A fraction and what follows it make up the text. -/
theorem append_of_fractionPart? {text fraction rest : List Char}
    (read : fractionPart? text = some (fraction, rest)) : fraction ++ rest = text := by
  unfold fractionPart? at read
  split at read
  · simp only [Option.map_eq_some_iff, Prod.mk.injEq] at read
    obtain ⟨⟨digits, after⟩, read, rfl, rfl⟩ := read
    simp [(append_of_digits? read).1]
  · simp only [Option.some.injEq, Prod.mk.injEq] at read
    simp [← read.1, ← read.2]

/-- An exponent and what follows it make up the text. -/
theorem append_of_exponentPart? {text exponent rest : List Char}
    (read : exponentPart? text = some (exponent, rest)) : exponent ++ rest = text := by
  unfold exponentPart? at read
  split at read
  · split at read
    · split at read
      · split at read
        · simp only [Option.map_eq_some_iff, Prod.mk.injEq] at read
          obtain ⟨⟨digits, after⟩, read, rfl, rfl⟩ := read
          simp [(append_of_digits? read).1]
        · simp only [Option.map_eq_some_iff, Prod.mk.injEq] at read
          obtain ⟨⟨digits, after⟩, read, rfl, rfl⟩ := read
          simp [(append_of_digits? read).1]
      · simp at read
    · simp only [Option.some.injEq, Prod.mk.injEq] at read
      simp [← read.1, ← read.2]
  · simp only [Option.some.injEq, Prod.mk.injEq] at read
    simp [← read.1, ← read.2]

/-- A number and what follows it make up the text. -/
theorem append_of_number? {text lexeme rest : List Char}
    (read : number? text = some (lexeme, rest)) : lexeme ++ rest = text ∧ lexeme ≠ [] := by
  unfold number? at read
  simp only [Option.bind_eq_bind, Option.bind_eq_some_iff, Prod.exists, Option.pure_def,
    Option.some.injEq, Prod.mk.injEq] at read
  obtain ⟨whole, rest₁, readWhole, fraction, rest₂, readFraction, exponent, rest₃, readExponent,
    rfl, rfl⟩ := read
  have exponentEq := append_of_exponentPart? readExponent
  have fractionEq := append_of_fractionPart? readFraction
  obtain ⟨wholeEq, nonempty⟩ := append_of_wholePart? readWhole
  split at wholeEq <;> simp_all

/-- A number takes at least one character. -/
theorem length_lt_of_number? {text lexeme rest : List Char}
    (read : number? text = some (lexeme, rest)) : rest.length + 1 ≤ text.length := by
  obtain ⟨rfl, nonempty⟩ := append_of_number? read
  have := List.length_pos_iff.2 nonempty
  simp only [List.length_append]
  omega

/-- Reads the token that starts with the given character, and what follows it. -/
def token? (c : Char) (rest : List Char) : Option (Token × Rest 1 (c :: rest)) :=
  match c with
  | '\x7b' => some (.openBrace, ⟨rest, by simp⟩)
  | '\x7d' => some (.closeBrace, ⟨rest, by simp⟩)
  | '[' => some (.openBracket, ⟨rest, by simp⟩)
  | ']' => some (.closeBracket, ⟨rest, by simp⟩)
  | ':' => some (.colon, ⟨rest, by simp⟩)
  | ',' => some (.comma, ⟨rest, by simp⟩)
  | 'n' => match rest with
    | 'u' :: 'l' :: 'l' :: rest => some (.null, ⟨rest, by simp⟩)
    | _ => none
  | 't' => match rest with
    | 'r' :: 'u' :: 'e' :: rest => some (.bool true, ⟨rest, by simp⟩)
    | _ => none
  | 'f' => match rest with
    | 'a' :: 'l' :: 's' :: 'e' :: rest => some (.bool false, ⟨rest, by simp⟩)
    | _ => none
  | '"' => (stringItems? rest).map fun (items, after) =>
      (.string ((charsOfItems? items).map String.ofList),
        ⟨after.1, by have := after.2; simp only [List.length_cons]; omega⟩)
  | c =>
    match read : number? (c :: rest) with
    | none => none
    | some (lexeme, after) => some (.number lexeme, ⟨after, length_lt_of_number? read⟩)

/-- Whether a character may stand between tokens. -/
def isSpace (c : Char) : Bool :=
  c == ' ' || c == '\n' || c == '\r' || c == '\t'

/-- The tokens of a text. -/
def tokens? (text : List Char) : Option (List Token) :=
  match text with
  | [] => some []
  | c :: rest =>
    if isSpace c then tokens? rest
    else
      match token? c rest with
      | none => none
      | some (token, ⟨after, _⟩) => (tokens? after).map (token :: ·)
termination_by text.length
decreasing_by
  · exact Nat.lt_succ_self rest.length
  · assumption

end GenericTypes.Json
