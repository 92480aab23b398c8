import GenericTypes.RawType.Basic

/-! # Inheritance level

The level of a type is the number of distinct types above it. Declared types can be reached along
many paths, so the names met so far are collected in a list without repetitions, and what stands
above a name is visited once. -/

namespace GenericTypes

/-- Adds the names of the types above a declared type to the names in `seen`. -/
def Declaration.ancestors (seen : List String) (declaration : Declaration) : List String :=
  declaration.parents.attach.foldl
    (fun seen parent =>
      have := sizeOf_lt_of_mem_parents parent.2
      if seen.contains parent.1.name then seen
      else parent.1.ancestors (parent.1.name :: seen))
    seen
termination_by sizeOf declaration

/-- The number of distinct types above a declared type. -/
def Declaration.level (declaration : Declaration) : Nat :=
  (declaration.ancestors []).length

/-- The number of distinct types above a raw type. Above an array stand the root and the interfaces
of arrays. -/
def RawType.level (raw : RawType) : Nat :=
  if raw.isArray then 1 + arrayInterfaces.length else raw.element.level

/-- The names above a declared type come from its parents in order, each visited unless its name has
been met. -/
theorem Declaration.ancestors_eq (seen : List String) (declaration : Declaration) :
    declaration.ancestors seen = declaration.parents.foldl
      (fun seen parent =>
        if seen.contains parent.name then seen else parent.ancestors (parent.name :: seen))
      seen := by
  rw [ancestors, List.foldl_subtype (g := fun seen parent =>
    if seen.contains parent.name then seen else ancestors (parent.name :: seen) parent)
    (fun _ _ _ => rfl), List.unattach_attach]

end GenericTypes
