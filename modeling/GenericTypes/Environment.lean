import GenericTypes.Text.Blank
import GenericTypes.Text.Decimal

/-! # Environment variables

Typed readings of environment variables. Blanks around a value are ignored; a variable that is not
set, or whose value has not the wanted form, has no reading. -/

namespace GenericTypes

/-- The values of the environment variables that are set. -/
abbrev Environment := String → Option String

namespace Environment

/-- The trimmed value of a variable. -/
def chars? (environment : Environment) (key : String) : Option (List Char) :=
  (environment key).map fun value => trim value.toList

/-- The value of a variable as text. -/
def text? (environment : Environment) (key : String) : Option String :=
  (environment.chars? key).map String.ofList

/-- The value of a variable as a natural number below `bound`. -/
def natural? (environment : Environment) (bound : Nat) (key : String) : Option Nat :=
  (environment.chars? key).bind (naturalBelow? bound)

/-- The value of a variable as an integer from `-bound` to `bound - 1`. -/
def integer? (environment : Environment) (bound : Nat) (key : String) : Option Int :=
  (environment.chars? key).bind (integerWithin? bound)

/-- The value of a variable as one of the words `true` and `false`. -/
def bool? (environment : Environment) (key : String) : Option Bool :=
  match environment.text? key with
  | some "true" => some true
  | some "false" => some false
  | _ => none

/-- What a word means as a flag. Upper and lower case do not matter; no character outside ASCII has
a lower case form that occurs in these words. -/
def flagOfWord? (word : String) : Option Bool :=
  let word := word.map Char.toLower
  if ["1", "true", "yes", "on"].contains word then some true
  else if ["0", "false", "no", "off"].contains word then some false
  else none

/-- The value of a variable as a flag. -/
def flag? (environment : Environment) (key : String) : Option Bool :=
  (environment.text? key).bind flagOfWord?

end Environment

end GenericTypes
