import GenericTypes.Name.Primitive

/-! # Names of array types

The binary name of an array type is one `[` for each dimension, followed by its element: the letter
of a primitive type, or `L`, the name of a class and `;`. Writing takes any element; reading accepts
the names that an array type can have. -/

namespace GenericTypes

/-- What an array name says about the element type. -/
inductive ArrayElement
  /-- A primitive element, given by its letter. -/
  | primitive (code : Char)
  /-- An element of a class or interface type, given by its binary name. -/
  | reference (name : String)
  deriving DecidableEq, Repr

/-- An element together with a number of dimensions. -/
structure ArrayName where
  /-- The element type. -/
  element : ArrayElement
  /-- How often the element is wrapped into an array. -/
  dimensions : Nat
  deriving DecidableEq, Repr

namespace ArrayElement

/-- The characters that stand for an element at the end of an array name. -/
def chars : ArrayElement → List Char
  | primitive code => [code]
  | reference name => 'L' :: (name.toList ++ [';'])

/-- Reads the element at the end of an array name. `void` has a letter but no arrays, and the name
of a class holds neither `[` nor `;`. -/
def ofChars? : List Char → Option ArrayElement
  | 'L' :: rest =>
    if rest.getLast? = some ';' then
      let name := rest.dropLast
      if name.isEmpty || name.any (fun c => c == '[' || c == ';') then none
      else some (reference (String.ofList name))
    else none
  | [code] => if (Primitive.ofCode? code).isSome && code != 'V' then some (primitive code) else none
  | _ => none

end ArrayElement

namespace ArrayName

/-- The characters of an array name. -/
def chars (array : ArrayName) : List Char :=
  List.replicate array.dimensions '[' ++ array.element.chars

/-- An array name as text. -/
def text (array : ArrayName) : String :=
  String.ofList array.chars

/-- Reads an array name. There is none without dimensions. -/
def ofText? (text : String) : Option ArrayName :=
  let brackets := text.toList.takeWhile (· == '[')
  if brackets.isEmpty then none
  else (ArrayElement.ofChars? (text.toList.dropWhile (· == '['))).map fun element =>
    ⟨element, brackets.length⟩

end ArrayName

end GenericTypes
