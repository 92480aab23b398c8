/-! # Decimal integers

Reading of integers written in ASCII digits. A leading `+` is allowed everywhere and a leading `-`
only where negative numbers are; separators, blanks and fractions are not. A number outside the
wanted range is no number at all. -/

namespace GenericTypes

/-- The value of a non-empty run of ASCII digits, most significant first. -/
def digitsValue? (digits : List Char) : Option Nat :=
  if digits.isEmpty || !digits.all Char.isDigit then none
  else some (digits.foldl (fun value digit => value * 10 + (digit.toNat - '0'.toNat)) 0)

/-- A non-negative integer below `bound`, with an optional `+`. -/
def naturalBelow? (bound : Nat) (text : List Char) : Option Nat :=
  let digits := match text with
    | '+' :: digits => digits
    | digits => digits
  (digitsValue? digits).filter (· < bound)

/-- An integer from `-bound` to `bound - 1`, with an optional sign. -/
def integerWithin? (bound : Nat) (text : List Char) : Option Int :=
  match text with
  | '-' :: digits => ((digitsValue? digits).filter (· ≤ bound)).map fun value => -(value : Int)
  | unsigned => (naturalBelow? bound unsigned).map Int.ofNat

end GenericTypes
