import GenericTypes.Descriptor.Basic
import GenericTypes.Error

/-! # Drafts

A draft is a descriptor that is being put together: a raw type that may still be missing and
arguments that are raw types, drafts again, or finished descriptors. Building a draft makes new
nodes for everything but the finished descriptors, which are attached as they are. -/

namespace GenericTypes

mutual

/-- A descriptor that is being put together. -/
structure Draft where
  /-- The raw type, once it is known. -/
  raw : Option RawType := none
  /-- The arguments so far. -/
  arguments : List Argument := []
  /-- Whether building makes a marker. -/
  identity : Bool := false

/-- An argument of a draft. -/
inductive Argument where
  /-- A raw type without arguments of its own. -/
  | raw (type : RawType)
  /-- A descriptor that is being put together itself. -/
  | draft (inner : Draft)
  /-- A finished descriptor. -/
  | built (descriptor : Descriptor)

end

namespace Draft

/-- A draft of a raw type without arguments. -/
def ofRaw (raw : RawType) : Draft :=
  { raw := some raw }

/-- A draft with another raw type. -/
def setRaw (draft : Draft) (raw : RawType) : Draft :=
  { draft with raw := some raw }

/-- A draft that makes a marker, or makes none. -/
def setIdentity (draft : Draft) (identity : Bool) : Draft :=
  { draft with identity }

/-- A draft with one more argument. -/
def add (draft : Draft) (argument : Argument) : Draft :=
  { draft with arguments := draft.arguments ++ [argument] }

/-- A draft with more arguments. -/
def addAll (draft : Draft) (arguments : List Argument) : Draft :=
  { draft with arguments := draft.arguments ++ arguments }

/-- A draft with more arguments, which has to have one already. -/
def addFurther (draft : Draft) (arguments : List Argument) : Except DescriptorError Draft :=
  if draft.arguments.isEmpty then .error (.sequence (draft.raw.map RawType.name))
  else .ok (draft.addAll arguments)

end Draft

namespace Argument

/-- The raw type of an argument, if it is known. -/
def raw? : Argument → Option RawType
  | .raw type => some type
  | .draft inner => inner.raw
  | .built descriptor => some descriptor.raw

/-- The number of arguments below an argument. -/
def arity : Argument → Nat
  | .raw _ => 0
  | .draft inner => inner.arguments.length
  | .built descriptor => descriptor.arguments.length

end Argument

mutual

/-- A draft that builds a descriptor of the same content. Markers among the arguments are attached
as they are, other arguments are taken apart. -/
def Descriptor.toDraft : Descriptor → Draft
  | ⟨_, raw, arguments, identity⟩ => ⟨some raw, Descriptor.toArguments arguments, identity⟩

/-- Descriptors as arguments of a draft. -/
def Descriptor.toArguments : List Descriptor → List Argument
  | [] => []
  | argument :: rest =>
    (if argument.identity then .built argument else .draft argument.toDraft)
      :: Descriptor.toArguments rest

end

/-- A descriptor as an argument of a draft: a marker is attached as it is, another one is taken
apart. -/
def Descriptor.toArgument (descriptor : Descriptor) : Argument :=
  if descriptor.identity then .built descriptor else .draft descriptor.toDraft

mutual

/-- Builds a draft at an address. Every draft inside has to have a raw type. -/
def Draft.build (here : Address) : Draft → Except DescriptorError Descriptor
  | ⟨none, _, _⟩ => .error .incomplete
  | ⟨some raw, arguments, identity⟩ => do
    return ⟨here, raw, ← Argument.buildAll here 0 arguments, identity⟩

/-- Builds an argument at an address, unless it is finished already. -/
def Argument.build (here : Address) : Argument → Except DescriptorError Descriptor
  | .raw type => .ok (.leaf here type)
  | .draft inner => inner.build here
  | .built descriptor => .ok descriptor

/-- Builds the arguments of the node at an address, the first of them being the argument with the
given index. -/
def Argument.buildAll (here : Address) (index : Nat) :
    List Argument → Except DescriptorError (List Descriptor)
  | [] => .ok []
  | argument :: rest => do
    let descriptor ← argument.build (here.child index)
    return descriptor :: (← Argument.buildAll here (index + 1) rest)

end

/-- Builds a draft with a value at its root. -/
def Draft.buildWith {α : Type} (here : Address) (payload : α) (draft : Draft) :
    Except DescriptorError (Carrier α) :=
  (draft.build here).map fun descriptor => ⟨descriptor, payload⟩

end GenericTypes
