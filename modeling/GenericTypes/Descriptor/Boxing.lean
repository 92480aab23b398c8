import GenericTypes.Descriptor.Equality
import GenericTypes.Registry.Basic

/-! # Equality up to boxing

Equality of descriptors in which a primitive type and the class that wraps it count as one. It
differs from equality only where a primitive type without arguments is concerned. -/

namespace GenericTypes

namespace Carrier

variable {α : Type}

/-- Whether two carriers are equal when a primitive type and the class that wraps it are not told
apart. -/
def equalUpToBoxing [BEq α] (registry : Registry) (left right : Carrier α) : Bool :=
  let leftRaw := left.descriptor.raw
  let rightRaw := right.descriptor.raw
  if left.descriptor.isGeneric || right.descriptor.isGeneric then left == right
  else
    match leftRaw.isPrimitive, rightRaw.isPrimitive with
    | false, false => left == right
    | true, true => leftRaw == rightRaw
    | true, false => (registry.box? leftRaw).any (· == rightRaw)
    | false, true => (registry.unbox? leftRaw).any (· == rightRaw)

end Carrier

end GenericTypes
