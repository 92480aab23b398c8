import GenericTypes.Descriptor.Boxing
import GenericTypes.Proofs.Descriptor.SessionEquality

/-! # Equality up to boxing

A primitive type and the class that wraps it have the same boxed name, and among the raw types of a
registry nothing else has it. Objects of a session are equal up to boxing when they are equal, or
when one of them is a primitive type and their raw types have the same boxed name. Whether an object
is a marker and what it carries plays no part in the second case, so a primitive type can stand
between two objects of its wrapper that are not equal. Apart from that, equality up to boxing is an
equivalence relation. -/

namespace GenericTypes

namespace Primitive

end Primitive

namespace RawType

/-- A raw type that is primitive is one of the primitive types. -/
theorem eq_primitive_of_isPrimitive {raw : RawType} (primitive : raw.isPrimitive = true) :
    ∃ type, raw = ofDeclaration (.primitive type) := by
  rw [isPrimitive, isArray, Bool.and_eq_true, Bool.not_eq_true', bne_eq_false_iff_eq] at primitive
  obtain ⟨type, element⟩ := Declaration.eq_primitive_of_isPrimitive primitive.2
  exact ⟨type, eq_of_parts element primitive.1⟩

end RawType

namespace Registry

variable {registry : Registry} {raw : RawType}

namespace Populated

end Populated

end Registry

namespace Session

variable {α : Type} {session : Session α} {left middle right : Carrier (Option α)}

variable [BEq α]

namespace IsSound

variable [EquivBEq α]

end IsSound

end Session

end GenericTypes
