import GenericTypes.Descriptor.Conversion
import GenericTypes.Descriptor.Equality
import GenericTypes.Descriptor.Fit

/-! # Fit through supertypes

A descriptor may fit only through a type above it: a class without parameters can extend a
parameterized one. The search goes through a candidate and everything above it, nearest first, and
looks at equal descriptors once. It ends because the declarations above a type are together smaller
than the declaration of the type. -/

namespace GenericTypes

namespace Descriptor

/-- The supertypes of a descriptor, none if one of them cannot be converted. The nodes that are made
are no markers, so it does not matter that all of them are made at one address. -/
def knownSupertypes (scope : Scope) (descriptor : Descriptor) : List Descriptor :=
  (descriptor.genericSupertypes scope descriptor.address).toOption.getD []

/-- What bounds a search: the size of the declarations in the queue. -/
noncomputable def searchBound (queue : List Descriptor) : Nat :=
  Declaration.totalSize (queue.map fun descriptor => descriptor.raw.element)

/-- The supertypes of a descriptor bound a search less than the descriptor does, wherever they are
made. -/
theorem searchBound_genericSupertypes_lt (scope : Scope) (here : Address)
    (descriptor : Descriptor) :
    searchBound ((descriptor.genericSupertypes scope here).toOption.getD [])
      < sizeOf descriptor.raw.element := by
  have smaller := descriptor.raw.element.totalSize_parents_lt
  have positive := Nat.zero_lt_of_lt smaller
  cases converted : descriptor.genericSupertypes scope here with
  | error => exact positive
  | ok supertypes =>
    have raws := congrArg (List.map RawType.element) (raw_of_genericSupertypes converted)
    rw [List.map_map] at raws
    change Declaration.totalSize (supertypes.map (RawType.element ∘ raw)) < _
    rw [raws, RawType.parents, RawType.supertypes]
    split
    · exact positive
    · rwa [List.map_map]

/-- Whether the expected descriptor accepts one in the queue, or one above it, leaving out
descriptors that are equal to one in `seen`. -/
def acceptsAbove (scope : Scope) (expected : Descriptor) (seen queue : List Descriptor) : Bool :=
  match queue with
  | [] => false
  | current :: rest =>
    have := searchBound_genericSupertypes_lt scope current.address current
    if seen.any (· == current) then acceptsAbove scope expected seen rest
    else
      expected.accepts current
        || acceptsAbove scope expected (current :: seen) (rest ++ current.knownSupertypes scope)
termination_by searchBound queue
decreasing_by
  all_goals
    simp only [searchBound, knownSupertypes, List.map_cons, List.map_append, Declaration.totalSize,
      Declaration.totalSize_append] at *
    omega

/-- Whether an expected descriptor accepts a candidate or a descriptor above it. -/
def acceptsThroughSupertypes (scope : Scope) (expected candidate : Descriptor) : Bool :=
  acceptsAbove scope expected [] [candidate]

end Descriptor

end GenericTypes
