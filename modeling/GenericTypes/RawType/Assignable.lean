import GenericTypes.RawType.Basic

/-! # Assignability of raw types

A raw type accepts another when a value of the other can be used in its place. Classes and
interfaces accept what is declared below them, the root accepts every class and interface, primitive
types accept only themselves, and arrays of the same number of dimensions accept as their elements
do. An array is also an object: the root and the interfaces of arrays accept every array, and an
array of these accepts every array with more dimensions. -/

namespace GenericTypes

/-- Whether a declared type accepts another declared type. -/
def Declaration.accepts (target source : Declaration) : Bool :=
  target.name == source.name
    || !target.isPrimitive && !source.isPrimitive
      && (target.isTop || source.parents.attach.any fun parent =>
        have := sizeOf_lt_of_mem_parents parent.2
        target.accepts parent.1)
termination_by sizeOf source

/-- A declared type accepts itself, and a type that is not primitive accepts what the root accepts
or what is declared below it. -/
theorem Declaration.accepts_eq (target source : Declaration) :
    target.accepts source =
      (target.name == source.name
        || !target.isPrimitive && !source.isPrimitive
          && (target.isTop || source.parents.any target.accepts)) := by
  rw [accepts, List.any_subtype (g := target.accepts) (fun _ _ => rfl), List.unattach_attach]

/-- Whether a raw type accepts another raw type. -/
def RawType.accepts (target source : RawType) : Bool :=
  target == source ||
    match target.dimensions, source.dimensions with
    | 0, 0 => target.element.accepts source.element
    | 0, _ + 1 => target.element.acceptsArrays
    | _ + 1, 0 => false
    | m + 1, n + 1 =>
      if m = n then
        !target.element.isPrimitive && !source.element.isPrimitive
          && target.element.accepts source.element
      else decide (m < n) && target.element.acceptsArrays

end GenericTypes
