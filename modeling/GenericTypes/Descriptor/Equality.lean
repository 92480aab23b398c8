import GenericTypes.Descriptor.Basic

/-! # Equality of descriptors

Descriptors are equal when their raw types have the same name and their arguments are equal in
order; markers are equal when they are the same node. The fingerprint of a descriptor is what a hash
of it has to be computed from, so that equal descriptors get equal hashes. -/

namespace GenericTypes

namespace Descriptor

mutual

/-- Whether two descriptors are equal. -/
def equal : Descriptor → Descriptor → Bool
  | ⟨leftAddress, leftRaw, lefts, leftIdentity⟩, ⟨rightAddress, rightRaw, rights, rightIdentity⟩ =>
    if leftIdentity || rightIdentity then
      leftIdentity && rightIdentity && leftAddress == rightAddress
    else leftRaw == rightRaw && equalAll lefts rights

/-- Whether two lists of descriptors are equal, position by position. -/
def equalAll : List Descriptor → List Descriptor → Bool
  | [], [] => true
  | left :: lefts, right :: rights => left.equal right && equalAll lefts rights
  | _, _ => false

end

instance : BEq Descriptor := ⟨equal⟩

/-- Whether two descriptors are the same node. -/
def sameNode (left right : Descriptor) : Bool :=
  left.address == right.address

/-- One entry of a fingerprint. -/
inductive Mark
  /-- The node of a marker. -/
  | node (address : Address)
  /-- The name of a raw type. -/
  | name (name : String)
  /-- The number of arguments that follow. -/
  | arity (count : Nat)
  deriving DecidableEq, Repr

/-- What a hash of a descriptor is computed from: the node of a marker, else the name of the raw
type and the arguments in order. -/
def fingerprint (descriptor : Descriptor) : List Mark :=
  if descriptor.identity then [.node descriptor.address]
  else
    .name descriptor.raw.name :: .arity descriptor.arguments.length
      :: descriptor.arguments.flatMap fun argument => argument.fingerprint
termination_by sizeOf descriptor
decreasing_by exact sizeOf_lt_of_mem_arguments ‹_›

end Descriptor

namespace Carrier

variable {α : Type}

/-- Whether two carriers are equal: their descriptors and their values are. -/
def equal [BEq α] (left right : Carrier α) : Bool :=
  left.descriptor == right.descriptor && left.payload == right.payload

instance [BEq α] : BEq (Carrier α) := ⟨equal⟩

/-- What a hash of a carrier is computed from. The value of a marker does not matter. -/
def fingerprint (carrier : Carrier α) : List Descriptor.Mark × Option α :=
  (carrier.descriptor.fingerprint,
    if carrier.descriptor.identity then none else some carrier.payload)

end Carrier

end GenericTypes
