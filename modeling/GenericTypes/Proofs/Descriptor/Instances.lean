import GenericTypes.Proofs.Descriptor.Search
import GenericTypes.Proofs.Related

/-! # Supertypes as instances

The supertypes of a declared type were resolved when it was declared, so none of them fails to be
converted. What a supertype is converted to is an instance of it: the same tree, with something else
in place of every type parameter. All parameters are replaced at once, as what replaces one of them
is taken as it is and not looked into. In a descriptor with an argument for each parameter the
argument itself replaces the parameter, be it a marker or not, and in any other one the root does.
An instance keeps the number of arguments of every application, so that the supertypes of a
descriptor whose nodes have the right number of arguments, or none, are such descriptors again. -/

namespace GenericTypes

/-- Whether a descriptor is a use with something in place of every type parameter, where `stands`
says what may be in place of a parameter and `self` is the only type that may be known by its name.
All other nodes are no markers. -/
inductive TypeUse.IsInstance (self : RawType) (stands : String → Descriptor → Prop) :
    TypeUse → Descriptor → Prop
  /-- A raw type stays alone. -/
  | plain (here : Address) (raw : RawType) :
    IsInstance self stands (.plain raw) ⟨here, raw, [], false⟩
  /-- The name of the type becomes the type. -/
  | named (here : Address) : IsInstance self stands (.named self.name) ⟨here, self, [], false⟩
  /-- A raw type is applied to instances of its arguments. -/
  | parameterized (here : Address) (raw : RawType) {uses : List TypeUse}
    {arguments : List Descriptor}
    (instances : List.Forall₂ (IsInstance self stands) uses arguments) :
    IsInstance self stands (.parameterized raw uses) ⟨here, raw, arguments, false⟩
  /-- A type parameter is replaced. -/
  | parameter {name : String} (bounds : List TypeUse) {replacement : Descriptor}
    (replaces : stands name replacement) :
    IsInstance self stands (.parameter name bounds) replacement

/-! ## Conversion -/

namespace Conversion

variable {conversion : Conversion} {known : RawType → Prop} {parameters : List String}
  {self : RawType} {stands : String → Descriptor → Prop}

/-- Arguments of which each is converted to an instance are converted to as many instances. -/
theorem exists_resolveArguments {arguments : List TypeUse}
    (total : ∀ argument ∈ arguments, ∀ here, ∃ descriptor,
      conversion.resolve here 0 argument = .ok (some descriptor)
        ∧ argument.IsInstance self stands descriptor)
    (here : Address) (index : Nat) :
    ∃ descriptors, conversion.resolveArguments here index arguments = .ok descriptors
      ∧ List.Forall₂ (TypeUse.IsInstance self stands) arguments descriptors := by
  induction arguments generalizing index with
  | nil => exact ⟨[], rfl, .nil⟩
  | cons argument rest ih =>
    rw [List.forall_mem_cons] at total
    obtain ⟨descriptor, first, isInstance⟩ := total.1 (here.child index)
    obtain ⟨descriptors, others, instances⟩ := ih total.2 (index + 1)
    refine ⟨descriptor :: descriptors, ?_, .cons isInstance instances⟩
    rw [resolveArguments, first]
    simp only [bind, Except.bind, others]
    rfl

section Resolved

variable (found : conversion.scope.find self.name = .ok self)
  (replaces : ∀ name ∈ parameters, ∀ here,
    stands name ((conversion.bindings.find? name).getD (.leaf here conversion.scope.top)))
include found replaces

/-- A use that has been resolved for a type is converted to an instance where the type is found. -/
theorem exists_resolve {use : TypeUse}
    (resolved : ∀ part ∈ use.parts, part.IsResolved known self.name parameters) (here : Address) :
    ∃ descriptor, conversion.resolve here 0 use = .ok (some descriptor)
      ∧ use.IsInstance self stands descriptor := by
  induction use using TypeUse.inductionOnComponents generalizing here with
  | step use ih =>
    rw [TypeUse.forall_parts_iff] at resolved
    cases use with
    | plain raw =>
      rw [resolve]
      exact ⟨_, rfl, .plain here raw⟩
    | named other =>
      cases show other = self.name from resolved.1
      rw [resolve, find, found]
      exact ⟨_, rfl, .named here⟩
    | parameterized raw arguments =>
      have total : ∀ argument ∈ arguments, ∀ here, ∃ descriptor,
          conversion.resolve here 0 argument = .ok (some descriptor)
            ∧ argument.IsInstance self stands descriptor :=
        fun argument mem => ih argument mem (resolved.2 argument mem)
      obtain ⟨descriptors, converted, instances⟩ := exists_resolveArguments total here 0
      rw [resolve, converted]
      exact ⟨_, rfl, .parameterized here raw instances⟩
    | parameter other bounds =>
      rw [resolve]
      exact ⟨_, rfl, .parameter bounds (replaces other resolved.1 here)⟩
    | array component => exact resolved.1.elim
    | wildcard upper lower => exact resolved.1.elim
    | unnameable description => exact resolved.1.elim

/-- Uses that have been resolved for a type are all converted to instances where the type is
found. -/
theorem exists_convertAll {uses : List TypeUse}
    (resolved : ∀ use ∈ uses, ∀ part ∈ use.parts, part.IsResolved known self.name parameters)
    (here : Address) (index : Nat) :
    ∃ descriptors, conversion.convertAll here index uses = .ok descriptors
      ∧ List.Forall₂ (TypeUse.IsInstance self stands) uses descriptors := by
  induction uses generalizing index with
  | nil => exact ⟨[], rfl, .nil⟩
  | cons use rest ih =>
    rw [List.forall_mem_cons] at resolved
    obtain ⟨descriptor, first, isInstance⟩ :=
      exists_resolve found replaces resolved.1 (here.child index)
    obtain ⟨descriptors, others, instances⟩ := ih resolved.2 (index + 1)
    refine ⟨descriptor :: descriptors, ?_, .cons isInstance instances⟩
    rw [convertAll, convert, first]
    simp only [bind, Except.bind, others]
    rfl

end Resolved

end Conversion

namespace Registry.Resolved

variable {registry : Registry}

/-- A descriptor has an instance of every supertype that its raw type declares. -/
theorem exists_instances (resolved : registry.Resolved) {descriptor : Descriptor}
    (mem : descriptor.raw.element ∈ registry.declared) (stands : String → Descriptor → Prop)
    (replaces : ∀ name ∈ descriptor.raw.parameters, ∀ here,
      stands name ((descriptor.bindings.find? name).getD (.leaf here registry.top)))
    (here : Address) :
    ∃ supertypes, descriptor.genericSupertypes registry.scope here = .ok supertypes
      ∧ List.Forall₂ (TypeUse.IsInstance descriptor.raw stands)
        (descriptor.raw.supertypes.map Supertype.toUse) supertypes := by
  cases isArray : descriptor.raw.isArray with
  | true =>
    rw [Descriptor.genericSupertypes, RawType.supertypes, isArray]
    exact ⟨[], rfl, .nil⟩
  | false =>
    rw [RawType.isArray, bne_eq_false_iff_eq] at isArray
    have found : registry.find descriptor.raw.name = .ok descriptor.raw := by
      rw [RawType.name_of_dimensions_eq isArray, resolved.find_name mem]
      exact congrArg Except.ok (RawType.eq_of_parts rfl isArray.symm)
    exact Conversion.exists_convertAll found replaces
      (List.forall_mem_map.2 (resolved.isResolved_supertypes mem)) here 0

end Registry.Resolved

/-! ## Arguments in place of type parameters -/

/-- Under a name that occurs once in a list of names, what stands in the same position of a list of
values is found. -/
theorem lookup_zip_of_nodup {α : Type} {names : List String} {values : List α} {name : String}
    (nodup : names.Nodup) {index : Nat} (position : names[index]? = some name) :
    (names.zip values).lookup name = values[index]? := by
  induction names generalizing values index with
  | nil => cases position
  | cons first rest ih =>
    obtain ⟨isNew, nodup⟩ := List.nodup_cons.1 nodup
    cases values with
    | nil => rfl
    | cons value values =>
      cases index with
      | zero =>
        cases position
        exact List.lookup_cons_self
      | succ index =>
        have position : rest[index]? = some name := position
        have different : name ≠ first := by
          rintro rfl
          exact isNew (List.mem_of_getElem? position)
        rw [List.zip_cons_cons, List.lookup_cons, beq_false_of_ne different]
        exact ih nodup position

namespace Descriptor

/-- Whether something replaces a type parameter in the supertypes of a descriptor: with an argument
for each parameter the argument in the position of the parameter, and otherwise the root. -/
def Replaces (top : RawType) (descriptor : Descriptor) (name : String)
    (replacement : Descriptor) : Prop :=
  if descriptor.arguments.length = descriptor.raw.parameters.length then
    name ∈ descriptor.raw.parameters
      ∧ ∀ index, descriptor.raw.parameters[index]? = some name →
        descriptor.argument? index = some replacement
  else ∃ here, replacement = leaf here top

/-- What a type parameter stands for in a descriptor replaces it, if the parameters of the raw type
differ from each other. -/
theorem replaces_find?_bindings {descriptor : Descriptor} {name : String}
    (nodup : descriptor.raw.parameters.Nodup) (mem : name ∈ descriptor.raw.parameters)
    (top : RawType) (here : Address) :
    descriptor.Replaces top name ((descriptor.bindings.find? name).getD (leaf here top)) := by
  rw [Replaces, bindings]
  split
  · rename_i length
    rw [if_pos length.symm, Bindings.find?]
    refine ⟨mem, fun index position => ?_⟩
    have inside : index < descriptor.arguments.length := by
      rw [length]
      exact (List.getElem?_eq_some_iff.1 position).1
    rw [lookup_zip_of_nodup nodup position, argument?, List.getElem?_eq_getElem inside]
    rfl
  · rename_i different
    rw [if_neg (Ne.symm different)]
    exact ⟨here, rfl⟩

/-- Whether a node has no arguments, or as many as its raw type has parameters. An array is asked
for its element. -/
def IsWellApplied (node : Descriptor) : Prop :=
  node.arguments = [] ∨ node.arguments.length = node.raw.element.parameters.length

/-- A descriptor without arguments has the right number of them everywhere. -/
theorem isWellApplied_of_arguments_eq_nil {descriptor : Descriptor}
    (none : descriptor.arguments = []) : ∀ node ∈ descriptor.nodes, node.IsWellApplied := by
  rw [forall_nodes_iff, none]
  exact ⟨.inl none, List.forall_mem_nil _⟩

/-- What replaces a type parameter has the right number of arguments everywhere, if the descriptor
has. -/
theorem Replaces.isWellApplied {top : RawType} {descriptor replacement : Descriptor}
    {name : String} (replaces : descriptor.Replaces top name replacement)
    (wellApplied : ∀ node ∈ descriptor.nodes, node.IsWellApplied) :
    ∀ node ∈ replacement.nodes, node.IsWellApplied := by
  rw [Replaces] at replaces
  split at replaces
  · obtain ⟨mem, stands⟩ := replaces
    obtain ⟨index, position⟩ := List.mem_iff_getElem?.1 mem
    have argument := List.mem_of_getElem? (stands index position)
    exact (forall_nodes_iff.1 wellApplied).2 replacement argument
  · obtain ⟨here, rfl⟩ := replaces
    exact isWellApplied_of_arguments_eq_nil rfl

end Descriptor

/-- An instance of a use that has been resolved has the right number of arguments everywhere, if
what replaces type parameters has. -/
theorem TypeUse.IsInstance.isWellApplied {known : RawType → Prop} {name : String}
    {parameters : List String} {self : RawType} {stands : String → Descriptor → Prop}
    (replacements : ∀ name replacement, stands name replacement →
      ∀ node ∈ replacement.nodes, node.IsWellApplied)
    {use : TypeUse} (resolved : ∀ part ∈ use.parts, part.IsResolved known name parameters)
    {descriptor : Descriptor} (isInstance : use.IsInstance self stands descriptor) :
    ∀ node ∈ descriptor.nodes, node.IsWellApplied := by
  induction use using inductionOnComponents generalizing descriptor with
  | step use ih =>
    rw [forall_parts_iff] at resolved
    cases isInstance with
    | plain here raw => exact Descriptor.isWellApplied_of_arguments_eq_nil rfl
    | named here => exact Descriptor.isWellApplied_of_arguments_eq_nil rfl
    | @parameterized here raw uses arguments instances =>
      refine Descriptor.forall_nodes_iff.2 ⟨?_, fun argument mem => ?_⟩
      · have length : arguments.length = raw.parameters.length :=
          instances.length_eq.symm.trans resolved.1.2
        rw [RawType.parameters] at length
        split at length
        · exact .inl (List.eq_nil_of_length_eq_zero length)
        · exact .inr length
      · obtain ⟨use, inside, isInstance⟩ := exists_mem_of_forall₂ instances mem
        exact ih use inside (resolved.2 use inside) isInstance
    | parameter bounds replaces => exact replacements _ _ replaces

namespace Registry

variable {registry : Registry} {descriptor : Descriptor}

/-- **The supertypes of a descriptor are instances of the declared ones.** In a registry that calls
lead to, take any descriptor of a raw type of the registry. All its supertypes are found. Their raw
types are those directly above the raw type of the descriptor, in order. Each of them is the
declared supertype with all type parameters replaced at once: with the arguments of the descriptor
as they are, if there is one for each parameter, and with the root otherwise. If all nodes of the
descriptor have no arguments or the right number of them, all nodes of the supertypes do. -/
theorem IsReachable.genericSupertypes_instantiate (reached : registry.IsReachable)
    (handle : registry.IsHandle descriptor.raw) (here : Address) :
    ∃ supertypes, descriptor.genericSupertypes registry.scope here = .ok supertypes
      ∧ supertypes.map Descriptor.raw = descriptor.raw.parents
      ∧ List.Forall₂ (TypeUse.IsInstance descriptor.raw (descriptor.Replaces registry.top))
        (descriptor.raw.supertypes.map Supertype.toUse) supertypes
      ∧ ((∀ node ∈ descriptor.nodes, node.IsWellApplied) →
        ∀ supertype ∈ supertypes, ∀ node ∈ supertype.nodes, node.IsWellApplied) := by
  have mem := reached.wellFormed.isHandle_iff.1 handle
  have nodup : descriptor.raw.parameters.Nodup := by
    rw [RawType.parameters]
    split
    · exact .nil
    · exact reached.nodup_parameters descriptor.raw.element mem
  obtain ⟨supertypes, converted, instances⟩ := reached.resolved.exists_instances mem
    (descriptor.Replaces registry.top)
    (fun name mem => Descriptor.replaces_find?_bindings nodup mem registry.top) here
  refine ⟨supertypes, converted, Descriptor.raw_of_genericSupertypes converted, instances, ?_⟩
  intro wellApplied supertype inside
  obtain ⟨use, named, isInstance⟩ := exists_mem_of_forall₂ instances inside
  obtain ⟨declared, above, rfl⟩ := List.mem_map.1 named
  exact isInstance.isWellApplied (fun _ _ replaces => replaces.isWellApplied wellApplied)
    (reached.resolved.isResolved_supertypes mem declared above)

/-- A crate of a number and a marker for numbers has one supertype, the box of this marker. -/
theorem IsReachable.genericSupertypes_instantiate_crate :
    let int : Descriptor := .leaf ⟨0, []⟩ (.ofDeclaration (.primitive .int))
    let marker : Descriptor := int.toIdentity ⟨1, []⟩
    let descriptor : Descriptor := ⟨⟨2, []⟩, .ofDeclaration crate, [int, marker], false⟩
    let above : Descriptor := ⟨⟨3, [0]⟩, .ofDeclaration box, [marker], false⟩
    crates.IsReachable ∧ crates.IsHandle descriptor.raw
      ∧ (∀ node ∈ descriptor.nodes, node.IsWellApplied)
      ∧ descriptor.genericSupertypes crates.scope ⟨3, []⟩ = .ok [above]
      ∧ (TypeUse.parameterized (.ofDeclaration box) [.parameter "T" []]).IsInstance
        (.ofDeclaration crate) (descriptor.Replaces crates.top) above
      ∧ ∀ node ∈ above.nodes, node.IsWellApplied := by
  intro int marker descriptor above
  have reached : crates.IsReachable := reachableFrom_crates.isReachable
  have handle : crates.IsHandle descriptor.raw := isHandle_crate
  have arguments : ∀ node ∈ descriptor.nodes, node.IsWellApplied := by
    refine Descriptor.forall_nodes_iff.2 ⟨.inr rfl, List.forall_mem_cons.2 ⟨?_, ?_⟩⟩
    · exact Descriptor.isWellApplied_of_arguments_eq_nil rfl
    · exact List.forall_mem_singleton.2 (Descriptor.isWellApplied_of_arguments_eq_nil rfl)
  have evaluated : descriptor.genericSupertypes crates.scope ⟨3, []⟩ = .ok [above] := rfl
  obtain ⟨supertypes, converted, -, instances, wellApplied⟩ :=
    reached.genericSupertypes_instantiate handle ⟨3, []⟩
  cases evaluated.symm.trans converted
  cases instances with
  | cons isInstance _ =>
    exact ⟨reached, handle, arguments, evaluated, isInstance,
      wellApplied arguments above List.mem_cons_self⟩

end Registry

end GenericTypes
