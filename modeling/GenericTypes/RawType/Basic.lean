import GenericTypes.Name.Array
import GenericTypes.Name.Short

/-! # Raw types and their uses

A raw type is a declared type, or an array of one with some number of dimensions. A declared type
carries the supertypes that it was declared with, so that the hierarchy above it can be walked
without a registry; it is a finite tree because a supertype has to exist before it can be named. The
arguments of a supertype are uses of types: the forms in which a type can occur in generic metadata.

Types are told apart by their binary names: `RawType` has a Boolean equality that compares these. -/

namespace GenericTypes

mutual

/-- A type as it was declared. -/
inductive Declaration where
  /-- The root of the hierarchy of classes. -/
  | top (name : String)
  /-- A primitive type. -/
  | primitive (type : Primitive)
  /-- A class with its type parameters, its superclass and its interfaces. -/
  | ordinary (name : String) (parameters : List String) (superclass : Supertype)
      (interfaces : List Supertype)
  /-- An interface with its type parameters and the interfaces that it extends. -/
  | interface (name : String) (parameters : List String) (interfaces : List Supertype)

/-- A supertype as it is written in a declaration: a declared type and its arguments, if any. -/
structure Supertype where
  /-- The class or interface that is extended. -/
  declaration : Declaration
  /-- The arguments that it is given, none for a plain name. -/
  arguments : List TypeUse

/-- A declared type, or an array of one. -/
structure RawType where
  /-- The declared type at the bottom. It is never an array itself. -/
  element : Declaration
  /-- How many times the element is wrapped into an array, zero for the declared type itself. -/
  dimensions : Nat := 0

/-- A use of a type in generic metadata. -/
inductive TypeUse where
  /-- A raw type alone. -/
  | plain (raw : RawType)
  /-- A type known by its binary name only. -/
  | named (name : String)
  /-- A raw type applied to arguments. -/
  | parameterized (raw : RawType) (arguments : List TypeUse)
  /-- An array whose component is a use of a type. -/
  | array (component : TypeUse)
  /-- A type parameter with its bounds. -/
  | parameter (name : String) (bounds : List TypeUse)
  /-- A wildcard with its upper and its lower bounds. -/
  | wildcard (upper lower : List TypeUse)
  /-- A type that metadata cannot name. -/
  | unnameable (description : String)

end

/-- The interfaces that every array type implements. -/
def arrayInterfaces : List String :=
  ["java.lang.Cloneable", "java.io.Serializable"]

namespace Declaration

/-- The binary name of a declared type. -/
def name : Declaration → String
  | top name => name
  | primitive type => type.name
  | ordinary name _ _ _ => name
  | interface name _ _ => name

/-- The type parameters of a declared type, in order. -/
def parameters : Declaration → List String
  | ordinary _ parameters _ _ => parameters
  | interface _ parameters _ => parameters
  | _ => []

/-- The superclass of a class other than the root. -/
def superclass? : Declaration → Option Supertype
  | ordinary _ _ superclass _ => some superclass
  | _ => none

/-- The interfaces that a declared type names. -/
def interfaces : Declaration → List Supertype
  | ordinary _ _ _ interfaces => interfaces
  | interface _ _ interfaces => interfaces
  | _ => []

/-- The supertypes that a declaration names, the superclass first. -/
def supertypes (declaration : Declaration) : List Supertype :=
  declaration.superclass?.toList ++ declaration.interfaces

/-- The declared types directly above a declared type. -/
def parents (declaration : Declaration) : List Declaration :=
  declaration.supertypes.map Supertype.declaration

/-- Whether a declared type is the root of the hierarchy. -/
def isTop : Declaration → Bool
  | top _ => true
  | _ => false

/-- Whether a declared type is primitive. -/
def isPrimitive : Declaration → Bool
  | primitive _ => true
  | _ => false

/-- Whether a declared type is an interface. -/
def isInterface : Declaration → Bool
  | interface _ _ _ => true
  | _ => false

/-- Whether a declared type is a class, the root among them. -/
def isClass : Declaration → Bool
  | top _ => true
  | ordinary _ _ _ _ => true
  | _ => false

/-- Whether a type accepts arrays of any kind: the root and the interfaces of arrays do. -/
def acceptsArrays (declaration : Declaration) : Bool :=
  declaration.isTop || arrayInterfaces.contains declaration.name

/-- How an array name refers to a declared type. -/
def arrayElement : Declaration → ArrayElement
  | primitive type => .primitive type.code
  | declaration => .reference declaration.name

/-- A type directly above a declared type is a smaller tree. -/
theorem sizeOf_lt_of_mem_parents {parent child : Declaration} (mem : parent ∈ child.parents) :
    sizeOf parent < sizeOf child := by
  simp only [parents, List.mem_map] at mem
  obtain ⟨supertype, mem, rfl⟩ := mem
  have inside : sizeOf supertype.declaration < sizeOf supertype := by
    cases supertype
    simp only [Supertype.mk.sizeOf_spec]
    omega
  cases child with
  | top => simp [supertypes, superclass?, interfaces] at mem
  | primitive => simp [supertypes, superclass?, interfaces] at mem
  | ordinary name parameters superclass interfaces =>
    simp only [supertypes, superclass?, Declaration.interfaces, Option.toList_some,
      List.singleton_append, List.mem_cons] at mem
    simp only [ordinary.sizeOf_spec]
    rcases mem with rfl | mem
    · omega
    · have := List.sizeOf_lt_of_mem mem
      omega
  | interface name parameters interfaces =>
    simp only [supertypes, superclass?, Declaration.interfaces, Option.toList_none,
      List.nil_append] at mem
    simp only [interface.sizeOf_spec]
    have := List.sizeOf_lt_of_mem mem
    omega

/-- How large some declared types are together. -/
noncomputable def totalSize : List Declaration → Nat
  | [] => 0
  | first :: rest => sizeOf first + totalSize rest

/-- Sizes add up under concatenation. -/
theorem totalSize_append (left right : List Declaration) :
    totalSize (left ++ right) = totalSize left + totalSize right := by
  induction left with
  | nil => exact (Nat.zero_add _).symm
  | cons first left ih => rw [List.cons_append, totalSize, totalSize, ih, Nat.add_assoc]

/-- The declarations of supertypes are together no larger than the list of the supertypes. -/
theorem totalSize_declarations_le (supertypes : List Supertype) :
    totalSize (supertypes.map Supertype.declaration) ≤ sizeOf supertypes := by
  induction supertypes with
  | nil => exact Nat.zero_le _
  | cons first rest ih =>
    cases first
    simp only [List.map_cons, totalSize, List.cons.sizeOf_spec, Supertype.mk.sizeOf_spec]
    omega

/-- The types directly above a declared type are together a smaller tree than the type. -/
theorem totalSize_parents_lt (declaration : Declaration) :
    totalSize declaration.parents < sizeOf declaration := by
  cases declaration with
  | top name =>
    simp only [parents, supertypes, superclass?, interfaces, Option.toList_none, List.append_nil,
      List.map_nil, totalSize, top.sizeOf_spec]
    omega
  | primitive type =>
    simp only [parents, supertypes, superclass?, interfaces, Option.toList_none, List.append_nil,
      List.map_nil, totalSize, primitive.sizeOf_spec]
    omega
  | ordinary name parameters superclass interfaces =>
    have := totalSize_declarations_le interfaces
    cases superclass
    simp only [parents, supertypes, superclass?, Declaration.interfaces, Option.toList_some,
      List.singleton_append, List.map_cons, totalSize, ordinary.sizeOf_spec,
      Supertype.mk.sizeOf_spec]
    omega
  | interface name parameters interfaces =>
    have := totalSize_declarations_le interfaces
    simp only [parents, supertypes, superclass?, Declaration.interfaces, Option.toList_none,
      List.nil_append, interface.sizeOf_spec]
    omega

/-- What holds of a declared type whenever it holds of all types directly above it holds of every
declared type. -/
@[elab_as_elim]
theorem inductionOnParents {motive : Declaration → Prop}
    (step : ∀ child : Declaration, (∀ parent ∈ child.parents, motive parent) → motive child)
    (declaration : Declaration) : motive declaration :=
  step declaration fun parent _ => inductionOnParents step parent
termination_by sizeOf declaration
decreasing_by exact sizeOf_lt_of_mem_parents ‹_›

end Declaration

namespace RawType

/-- The declared type itself. -/
def ofDeclaration (declaration : Declaration) : RawType :=
  ⟨declaration, 0⟩

/-- The binary name of a raw type. -/
def name (raw : RawType) : String :=
  if raw.dimensions = 0 then raw.element.name
  else ArrayName.text ⟨raw.element.arrayElement, raw.dimensions⟩

instance : BEq RawType := ⟨fun left right => left.name == right.name⟩

/-- The short name of a raw type, with `[]` for each dimension. -/
def shortName (raw : RawType) : String :=
  GenericTypes.shortName raw.element.name ++ String.join (List.replicate raw.dimensions "[]")

/-- A raw type wrapped into `dimensions` further arrays. -/
def arrayOf (raw : RawType) (dimensions : Nat) : RawType :=
  { raw with dimensions := raw.dimensions + dimensions }

/-- Whether a raw type is an array. -/
def isArray (raw : RawType) : Bool :=
  raw.dimensions != 0

/-- The element of an array as a raw type, and its number of dimensions. Any other raw type is its
own element, without dimensions. -/
def arrayBase (raw : RawType) : RawType × Nat :=
  if raw.isArray then (ofDeclaration raw.element, raw.dimensions) else (raw, 0)

/-- Whether a raw type is the root of the hierarchy. -/
def isTop (raw : RawType) : Bool :=
  !raw.isArray && raw.element.isTop

/-- Whether a raw type is primitive. -/
def isPrimitive (raw : RawType) : Bool :=
  !raw.isArray && raw.element.isPrimitive

/-- Whether a raw type is an interface. -/
def isInterface (raw : RawType) : Bool :=
  !raw.isArray && raw.element.isInterface

/-- Whether a raw type is a class. -/
def isClass (raw : RawType) : Bool :=
  !raw.isArray && raw.element.isClass

/-- The type parameters of a raw type. An array has none. -/
def parameters (raw : RawType) : List String :=
  if raw.isArray then [] else raw.element.parameters

/-- The position of the type parameter called `name`. -/
def parameterIndex? (raw : RawType) (name : String) : Option Nat :=
  raw.parameters.findIdx? (· == name)

/-- The supertypes that a raw type was declared with. An array has none. -/
def supertypes (raw : RawType) : List Supertype :=
  if raw.isArray then [] else raw.element.supertypes

/-- The superclass that a raw type was declared with. -/
def superclass? (raw : RawType) : Option Supertype :=
  if raw.isArray then none else raw.element.superclass?

/-- The interfaces that a raw type was declared with. -/
def interfaces (raw : RawType) : List Supertype :=
  if raw.isArray then [] else raw.element.interfaces

/-- The raw types directly above a raw type. -/
def parents (raw : RawType) : List RawType :=
  raw.supertypes.map fun supertype => ofDeclaration supertype.declaration

/-- No further dimensions change nothing. -/
@[simp] theorem arrayOf_zero (raw : RawType) : raw.arrayOf 0 = raw := by
  cases raw
  rfl

/-- Wrapping twice adds the dimensions. -/
@[simp] theorem arrayOf_arrayOf (raw : RawType) (m n : Nat) :
    (raw.arrayOf m).arrayOf n = raw.arrayOf (m + n) := by
  simp [arrayOf, Nat.add_assoc]

/-- Wrapping keeps the element. -/
@[simp] theorem element_arrayOf (raw : RawType) (n : Nat) :
    (raw.arrayOf n).element = raw.element := rfl

/-- Wrapping adds to the dimensions. -/
@[simp] theorem dimensions_arrayOf (raw : RawType) (n : Nat) :
    (raw.arrayOf n).dimensions = raw.dimensions + n := rfl

/-- The base of a raw type consists of its element and its dimensions. -/
@[simp] theorem arrayBase_eq (raw : RawType) :
    raw.arrayBase = (ofDeclaration raw.element, raw.dimensions) := by
  cases raw with
  | mk element dimensions => cases dimensions <;> rfl

/-- Raw types are equal as Booleans when their names are. -/
@[simp] theorem beq_iff {left right : RawType} :
    (left == right) = true ↔ left.name = right.name :=
  beq_iff_eq (a := left.name) (b := right.name)

end RawType

end GenericTypes
