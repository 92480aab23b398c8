import GenericTypes.RawType.Basic

/-! # Descriptors

A descriptor is a raw type together with descriptors of its type arguments. Most descriptors are
known by their structure. A descriptor in identity mode is a marker instead: it is equal to nothing
but itself. To tell markers apart every node has an address, which says in which operation the node
was made and where in the result of that operation it stands; copying a descriptor keeps its
address. -/

namespace GenericTypes

/-- Where a node was made. -/
structure Address where
  /-- The operation that made the node. -/
  operation : Nat
  /-- The position of the node in the result of that operation, the innermost index first. -/
  path : List Nat := []
  deriving DecidableEq, Repr

/-- The address of the part with the given index. -/
def Address.child (address : Address) (index : Nat) : Address :=
  { address with path := index :: address.path }

/-- The parts of one address differ. -/
@[simp] theorem Address.child_inj {address : Address} {i j : Nat} :
    address.child i = address.child j ↔ i = j := by
  simp [child]

/-- A raw type with descriptors of its type arguments. -/
structure Descriptor where
  /-- Where the node was made. -/
  address : Address
  /-- The raw type. -/
  raw : RawType
  /-- The type arguments, in the order of the type parameters. -/
  arguments : List Descriptor := []
  /-- Whether the descriptor is a marker that is equal to itself only. -/
  identity : Bool := false

namespace Descriptor

/-- An argument is a smaller tree than the descriptor. -/
theorem sizeOf_lt_of_mem_arguments {descriptor argument : Descriptor}
    (mem : argument ∈ descriptor.arguments) : sizeOf argument < sizeOf descriptor := by
  cases descriptor
  have := List.sizeOf_lt_of_mem mem
  simp only [mk.sizeOf_spec] at this ⊢
  omega

/-- What holds of a descriptor whenever it holds of all its arguments holds of every descriptor. -/
@[elab_as_elim]
theorem inductionOnArguments {motive : Descriptor → Prop}
    (step : ∀ descriptor : Descriptor,
      (∀ argument ∈ descriptor.arguments, motive argument) → motive descriptor)
    (descriptor : Descriptor) : motive descriptor :=
  step descriptor fun argument _ => inductionOnArguments step argument
termination_by sizeOf descriptor
decreasing_by exact sizeOf_lt_of_mem_arguments ‹_›

/-- The descriptor of a raw type without arguments. -/
def leaf (here : Address) (raw : RawType) : Descriptor :=
  { address := here, raw }

/-- The argument at an index. -/
def argument? (descriptor : Descriptor) (index : Nat) : Option Descriptor :=
  descriptor.arguments[index]?

/-- The argument for the type parameter called `parameter`. -/
def argumentNamed? (descriptor : Descriptor) (parameter : String) : Option Descriptor :=
  (descriptor.raw.parameterIndex? parameter).bind descriptor.argument?

/-- Whether a descriptor has arguments. -/
def isGeneric (descriptor : Descriptor) : Bool :=
  !descriptor.arguments.isEmpty

/-- How deep arguments are nested, zero without arguments. -/
def depth (descriptor : Descriptor) : Nat :=
  (descriptor.arguments.map fun argument => argument.depth + 1).foldr Nat.max 0
termination_by sizeOf descriptor
decreasing_by exact sizeOf_lt_of_mem_arguments ‹_›

/-- A new node with the same content. -/
def copyTo (here : Address) (descriptor : Descriptor) : Descriptor :=
  { descriptor with address := here }

/-- A new marker with the same content, or the descriptor itself when it is a marker already. -/
def toIdentity (here : Address) (descriptor : Descriptor) : Descriptor :=
  if descriptor.identity then descriptor
  else { descriptor with address := here, identity := true }

end Descriptor

/-- A descriptor that carries a value at its root. The root is a node of its own, also for the same
content with another value. -/
structure Carrier (α : Type) where
  /-- The descriptor without the value. -/
  descriptor : Descriptor
  /-- The value. -/
  payload : α

namespace Carrier

variable {α β : Type}

/-- A new node with the same content and another value. -/
def withPayload (here : Address) (payload : β) (carrier : Carrier α) : Carrier β :=
  ⟨carrier.descriptor.copyTo here, payload⟩

/-- A new node with the same content and no value. -/
def withoutPayload (here : Address) (carrier : Carrier α) : Descriptor :=
  carrier.descriptor.copyTo here

/-- A new marker with the same content and value, or the carrier itself when it is one already. -/
def toIdentity (here : Address) (carrier : Carrier α) : Carrier α :=
  { carrier with descriptor := carrier.descriptor.toIdentity here }

end Carrier

end GenericTypes
