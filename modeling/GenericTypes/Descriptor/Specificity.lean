import GenericTypes.Descriptor.Basic
import GenericTypes.RawType.Level

/-! # From general to specific

An order of descriptors that puts types with more supertypes later. Types on the same level go by
their names; descriptors of the same raw type go by the number of arguments and then by the
arguments in order. -/

namespace GenericTypes

/-- The order of raw types: by level, then by name. -/
def RawType.specificity (left right : RawType) : Ordering :=
  if left == right then .eq
  else (compare left.level right.level).then (compare left.name right.name)

namespace Descriptor

mutual

/-- The order of descriptors. -/
def specificity : Descriptor → Descriptor → Ordering
  | ⟨_, leftRaw, lefts, _⟩, ⟨_, rightRaw, rights, _⟩ =>
    (leftRaw.specificity rightRaw).then
      ((compare lefts.length rights.length).then (specificityAll lefts rights))

/-- The order of lists of arguments: the first position that differs decides. -/
def specificityAll : List Descriptor → List Descriptor → Ordering
  | left :: lefts, right :: rights =>
    (left.specificity right).then (specificityAll lefts rights)
  | _, _ => .eq

end

/-- Descriptors from general to specific. Descriptors of the same place keep their order. -/
def sortBySpecificity (descriptors : List Descriptor) : List Descriptor :=
  descriptors.mergeSort fun left right => (left.specificity right).isLE

end Descriptor

end GenericTypes
