import GenericTypes.RawType.Basic

/-! # Uses of types as texts

The text of a use of a type, equality of uses, and the layers of arrays around a use. Raw types
inside uses are compared by their names, as everywhere. -/

namespace GenericTypes

namespace TypeUse

/-- The text of a use. A wildcard shows its lower bounds if there are any, else its upper bounds; a
type parameter shows its name only. -/
def text : TypeUse → String
  | plain raw => raw.name
  | named name => name
  | parameterized raw arguments =>
    raw.name ++ "<" ++ ", ".intercalate (arguments.map text) ++ ">"
  | array component => component.text ++ "[]"
  | parameter name _ => name
  | wildcard upper lower =>
    if !lower.isEmpty then "? super " ++ " & ".intercalate (lower.map text)
    else if !upper.isEmpty then "? extends " ++ " & ".intercalate (upper.map text)
    else "?"
  | unnameable description => "<opaque " ++ description ++ ">"

mutual

/-- Whether two uses are the same, raw types being compared by their names. -/
def same : TypeUse → TypeUse → Bool
  | plain left, plain right => left == right
  | named left, named right => left == right
  | parameterized left lefts, parameterized right rights => left == right && sameAll lefts rights
  | array left, array right => left.same right
  | parameter left lefts, parameter right rights => left == right && sameAll lefts rights
  | wildcard leftUpper leftLower, wildcard rightUpper rightLower =>
    sameAll leftUpper rightUpper && sameAll leftLower rightLower
  | unnameable left, unnameable right => left == right
  | _, _ => false

/-- Whether two lists of uses are the same, position by position. -/
def sameAll : List TypeUse → List TypeUse → Bool
  | [], [] => true
  | left :: lefts, right :: rights => left.same right && sameAll lefts rights
  | _, _ => false

end

/-- The raw type that a use is built on, if it has one directly. -/
def raw? : TypeUse → Option RawType
  | plain raw => some raw
  | parameterized raw _ => some raw
  | _ => none

/-- The use inside all layers of arrays. -/
def arrayBase : TypeUse → TypeUse
  | array component => component.arrayBase
  | use => use

/-- The number of layers of arrays around a use. -/
def arrayDimensions : TypeUse → Nat
  | array component => component.arrayDimensions + 1
  | _ => 0

/-- A use wrapped into `dimensions` layers of arrays. -/
def arrayOf (use : TypeUse) : Nat → TypeUse
  | 0 => use
  | dimensions + 1 => array (use.arrayOf dimensions)

end TypeUse

/-- A supertype as a use: a plain raw type, or a raw type applied to arguments. -/
def Supertype.toUse (supertype : Supertype) : TypeUse :=
  if supertype.arguments.isEmpty then .plain (.ofDeclaration supertype.declaration)
  else .parameterized (.ofDeclaration supertype.declaration) supertype.arguments

/-- A use as a supertype. Only a declared type, with arguments or without, can be one. -/
def Supertype.ofUse? : TypeUse → Option Supertype
  | .plain ⟨declaration, 0⟩ => some ⟨declaration, []⟩
  | .parameterized ⟨declaration, 0⟩ arguments => some ⟨declaration, arguments⟩
  | _ => none

end GenericTypes
