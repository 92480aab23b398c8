import GenericTypes.Error
import GenericTypes.RawType.Basic

/-! # Registries

A registry knows the declared types by their names and has one root. Array types are not declared:
they follow from the declared types and are remembered once they have been looked up.
`Registry.find` says what a name stands for, `Registry.lookup` says it and remembers. -/

namespace GenericTypes

/-- The declared types, and the array types that have been looked up. -/
structure Registry where
  /-- The name of the root of the hierarchy. -/
  topName : String
  /-- The declared types, the latest first. -/
  declared : List Declaration
  /-- The array types that have been looked up, by the names that were asked for. -/
  arrays : List (String × RawType) := []

/-- Where descriptors look names up: what each name stands for, and the root of the hierarchy. -/
structure Scope where
  /-- What a name stands for. -/
  find : String → Except RegistryError RawType
  /-- The type that stands in for a type that is not known. -/
  top : RawType

namespace Registry

/-- A registry with the root alone. -/
def ofTop (topName : String) : Registry :=
  ⟨topName, [.top topName], []⟩

/-- The root of a registry. -/
def top (registry : Registry) : RawType :=
  .ofDeclaration (.top registry.topName)

/-- The declared type called `name`. -/
def declared? (registry : Registry) (name : String) : Option Declaration :=
  registry.declared.find? (·.name == name)

/-- Whether a type is declared under a name. -/
def contains (registry : Registry) (name : String) : Bool :=
  (registry.declared? name).isSome

/-- The number of declared types. -/
def size (registry : Registry) : Nat :=
  registry.declared.length

/-- The names of the declared types in ascending order. -/
def names (registry : Registry) : List String :=
  (registry.declared.map Declaration.name).mergeSort

/-- What a name stands for that is not taken apart: a declared type, or an array type that is
remembered. -/
def known? (registry : Registry) (name : String) : Option RawType :=
  match registry.declared? name with
  | some declaration => some (.ofDeclaration declaration)
  | none => registry.arrays.lookup name

/-- The type that an array name refers to by its element. A letter stands for the type that is known
under the name of the primitive type; a name stands for no primitive type. Neither is taken apart,
as the name of an element never starts with a bracket. -/
def component? (registry : Registry) : ArrayElement → Option RawType
  | .primitive code => (Primitive.ofCode? code).bind fun type => registry.known? type.name
  | .reference name => (registry.known? name).filter (!·.isPrimitive)

/-- The array type that a name describes. -/
def described? (registry : Registry) (name : String) : Option RawType := do
  let array ← ArrayName.ofText? name
  let component ← registry.component? array.element
  return component.arrayOf array.dimensions

/-- What a name stands for: a known type, or an array type that the name describes. -/
def find (registry : Registry) (name : String) : Except RegistryError RawType :=
  match registry.known? name with
  | some raw => .ok raw
  | none =>
    match registry.described? name with
    | some array => .ok array
    | none => .error (.typeNotFound name)

/-- The registry after a name was looked up: an array type that was found by its description is
remembered. -/
def remember (registry : Registry) (name : String) : Registry :=
  match registry.known? name, registry.described? name with
  | none, some array => { registry with arrays := (name, array) :: registry.arrays }
  | _, _ => registry

/-- Looks a name up. -/
def lookup (registry : Registry) (name : String) : Except RegistryError RawType × Registry :=
  (registry.find name, registry.remember name)

/-- The registry as a place to look names up. -/
def scope (registry : Registry) : Scope :=
  ⟨registry.find, registry.top⟩

/-- The class that wraps a primitive type, if it is known. -/
def box? (registry : Registry) (raw : RawType) : Option RawType :=
  if raw.isPrimitive then
    (Primitive.ofName? raw.name).bind fun type => (registry.find type.wrapper).toOption
  else none

/-- The type known under the name of the primitive type that a class wraps. -/
def unbox? (registry : Registry) (raw : RawType) : Option RawType :=
  (Primitive.ofWrapper? raw.name).bind fun type => (registry.find type.name).toOption

end Registry

end GenericTypes
