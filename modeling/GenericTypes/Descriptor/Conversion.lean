import GenericTypes.Descriptor.Basic
import GenericTypes.Registry.Basic
import GenericTypes.TypeUse

/-! # Descriptors of uses

Descriptors have neither wildcards nor type parameters, so a use of a type is approximated: a type
parameter becomes the descriptor that is bound to it, or the root when there is none; a wildcard
becomes its first upper bound, or the root; and a type that cannot be named ends the list of
arguments in which it stands. -/

namespace GenericTypes

/-- The descriptors bound to type parameters, the latest binding first. -/
abbrev Bindings := List (String × Descriptor)

/-- Binds a type parameter. An earlier binding of it is no longer seen. -/
def Bindings.bind (bindings : Bindings) (parameter : String) (descriptor : Descriptor) : Bindings :=
  (parameter, descriptor) :: bindings

/-- The descriptor bound to a type parameter. -/
def Bindings.find? (bindings : Bindings) (parameter : String) : Option Descriptor :=
  bindings.lookup parameter

/-- A type parameter that is bound stands for what it is bound to. -/
@[simp] theorem Bindings.find?_bind_self (bindings : Bindings) (parameter : String)
    (descriptor : Descriptor) :
    (bindings.bind parameter descriptor).find? parameter = some descriptor :=
  List.lookup_cons_self

/-- A type parameter that is not bound stands for the same as before. -/
theorem Bindings.find?_bind_of_ne {parameter other : String} (different : other ≠ parameter)
    (bindings : Bindings) (descriptor : Descriptor) :
    (bindings.bind parameter descriptor).find? other = bindings.find? other := by
  rw [bind, find?, List.lookup_cons, beq_false_of_ne different]
  rfl

/-- What a type parameter stands for has been bound to it. -/
theorem Bindings.mem_of_find? {bindings : Bindings} {parameter : String} {descriptor : Descriptor}
    (stands : bindings.find? parameter = some descriptor) : (parameter, descriptor) ∈ bindings := by
  obtain ⟨before, after, rfl, -⟩ := List.lookup_eq_some_iff.1 stands
  exact List.mem_append_right before List.mem_cons_self

/-- What a conversion needs: where names are looked up and what type parameters stand for. -/
structure Conversion where
  /-- Where names are looked up. -/
  scope : Scope
  /-- What type parameters stand for. -/
  bindings : Bindings := []

namespace Conversion

/-- The raw type that a name stands for. -/
def find (conversion : Conversion) (name : String) : Except DescriptorError RawType :=
  (conversion.scope.find name).mapError DescriptorError.ofRegistry

/-- Wraps a converted component into arrays. The array type has to be known by its name. -/
def wrap (conversion : Conversion) (here : Address) (component : Descriptor) :
    Nat → Except DescriptorError Descriptor
  | 0 => .ok component
  | layers + 1 => do
    let raw ← conversion.find (component.raw.arrayOf (layers + 1)).name
    return { address := here, raw, arguments := component.arguments }

/-- Wraps a component into arrays, if there is a component. -/
def wrapSome (conversion : Conversion) (here : Address) (layers : Nat)
    (component : Option Descriptor) : Except DescriptorError (Option Descriptor) :=
  match component with
  | none => .ok none
  | some component => (conversion.wrap here component layers).map some

mutual

/-- The descriptor of a use inside `layers` arrays, or nothing when the use cannot be named. -/
def resolve (conversion : Conversion) (here : Address) (layers : Nat) :
    TypeUse → Except DescriptorError (Option Descriptor)
  | .plain raw => conversion.wrapSome here layers (some (.leaf here raw))
  | .named name => do
    let raw ← conversion.find name
    conversion.wrapSome here layers (some (.leaf here raw))
  | .parameterized raw arguments => do
    let arguments ← conversion.resolveArguments here 0 arguments
    conversion.wrapSome here layers (some { address := here, raw, arguments })
  | .array component => conversion.resolve here (layers + 1) component
  | .parameter name _ =>
    conversion.wrapSome here layers
      (some ((conversion.bindings.find? name).getD (.leaf here conversion.scope.top)))
  | .wildcard (bound :: _) _ => do
    let bound ← conversion.resolve here 0 bound
    conversion.wrapSome here layers bound
  | .wildcard [] _ => conversion.wrapSome here layers (some (.leaf here conversion.scope.top))
  | .unnameable _ => .ok none

/-- The descriptors of arguments up to the first one that cannot be named, the first of them being
the argument with the given index. -/
def resolveArguments (conversion : Conversion) (here : Address) (index : Nat) :
    List TypeUse → Except DescriptorError (List Descriptor)
  | [] => .ok []
  | argument :: rest => do
    match ← conversion.resolve (here.child index) 0 argument with
    | none => return []
    | some descriptor => return descriptor :: (← conversion.resolveArguments here (index + 1) rest)

end

/-- Converts a use. A use that cannot be named is not found, under its own text. -/
def convert (conversion : Conversion) (here : Address) (use : TypeUse) :
    Except DescriptorError Descriptor := do
  match ← conversion.resolve here 0 use with
  | some descriptor => return descriptor
  | none => throw (.typeNotFound use.text)

/-- Converts uses in order, the first of them being the part with the given index. -/
def convertAll (conversion : Conversion) (here : Address) (index : Nat) :
    List TypeUse → Except DescriptorError (List Descriptor)
  | [] => .ok []
  | use :: rest => do
    let descriptor ← conversion.convert (here.child index) use
    return descriptor :: (← conversion.convertAll here (index + 1) rest)

/-- Converting a supertype keeps its raw type. -/
theorem raw_of_convert_toUse {conversion : Conversion} {here : Address} {supertype : Supertype}
    {descriptor : Descriptor}
    (converted : conversion.convert here supertype.toUse = .ok descriptor) :
    descriptor.raw = .ofDeclaration supertype.declaration := by
  unfold Supertype.toUse at converted
  split at converted
  · simp only [convert, resolve, wrapSome, wrap, Except.map, bind, Except.bind, pure, Except.pure,
      Except.ok.injEq] at converted
    exact converted ▸ rfl
  · simp only [convert, resolve] at converted
    cases arguments : conversion.resolveArguments here 0 supertype.arguments with
    | error => simp [arguments, bind, Except.bind] at converted
    | ok =>
      simp only [arguments, wrapSome, wrap, Except.map, bind, Except.bind, pure, Except.pure,
        Except.ok.injEq] at converted
      exact converted ▸ rfl

/-- Converting supertypes keeps their raw types, in order. -/
theorem raw_of_convertAll_toUse {conversion : Conversion} {here : Address} {index : Nat}
    {supertypes : List Supertype} {descriptors : List Descriptor}
    (converted : conversion.convertAll here index (supertypes.map Supertype.toUse) =
      .ok descriptors) :
    descriptors.map Descriptor.raw =
      supertypes.map fun supertype => .ofDeclaration supertype.declaration := by
  induction supertypes generalizing index descriptors with
  | nil => simp_all [convertAll]
  | cons first rest ih =>
    simp only [List.map_cons, convertAll] at converted
    cases head : conversion.convert (here.child index) first.toUse with
    | error => simp [head, bind, Except.bind] at converted
    | ok descriptor =>
      cases tail : conversion.convertAll here (index + 1) (rest.map Supertype.toUse) with
      | error => simp [head, tail, bind, Except.bind] at converted
      | ok others =>
        simp only [head, tail, bind, Except.bind, pure, Except.pure, Except.ok.injEq] at converted
        simp [← converted, raw_of_convert_toUse head, ih tail]

end Conversion

namespace Descriptor

/-- What the type parameters of the raw type stand for in a descriptor. When the number of arguments
is another one, the parameters stand for nothing. -/
def bindings (descriptor : Descriptor) : Bindings :=
  if descriptor.raw.parameters.length = descriptor.arguments.length then
    descriptor.raw.parameters.zip descriptor.arguments
  else []

/-- The supertypes of a descriptor, with its arguments in place of the type parameters. -/
def genericSupertypes (scope : Scope) (here : Address) (descriptor : Descriptor) :
    Except DescriptorError (List Descriptor) :=
  Conversion.convertAll ⟨scope, descriptor.bindings⟩ here 0
    (descriptor.raw.supertypes.map Supertype.toUse)

/-- The raw types of the supertypes of a descriptor are the types directly above its raw type. -/
theorem raw_of_genericSupertypes {scope : Scope} {here : Address} {descriptor : Descriptor}
    {supertypes : List Descriptor}
    (converted : descriptor.genericSupertypes scope here = .ok supertypes) :
    supertypes.map raw = descriptor.raw.parents :=
  Conversion.raw_of_convertAll_toUse converted

end Descriptor

end GenericTypes
