import GenericTypes.Proofs.Descriptor.Instances
import GenericTypes.Proofs.Registry.Inheritance

/-! # Supertypes of descriptors

What a descriptor has one step up are instances of the supertypes that its raw type declares, each
with as many arguments as it was declared with. Further steps follow the declarations in the same
way. What can be met above a descriptor, up to what the arguments are, is therefore known from its
raw type alone. -/

namespace GenericTypes

/-- A supertype without what its arguments are. -/
def Supertype.outline (supertype : Supertype) : RawType × Nat :=
  (.ofDeclaration supertype.declaration, supertype.arguments.length)

/-- A descriptor without what its arguments are. -/
def Descriptor.outline (descriptor : Descriptor) : RawType × Nat :=
  (descriptor.raw, descriptor.arguments.length)

/-- An instance of a supertype has the raw type of the supertype and as many arguments. -/
theorem Supertype.outline_eq_of_isInstance {supertype : Supertype} {self : RawType}
    {stands : String → Descriptor → Prop} {descriptor : Descriptor}
    (isInstance : supertype.toUse.IsInstance self stands descriptor) :
    descriptor.outline = supertype.outline := by
  rw [toUse] at isInstance
  split at isInstance
  · rename_i bare
    cases isInstance
    rw [outline, List.isEmpty_iff.1 bare]
    rfl
  · cases isInstance with
    | parameterized here raw instances => exact congrArg (Prod.mk _) instances.length_eq.symm

/-! ## Steps up -/

namespace Registry

variable {registry : Registry} {start lower upper : Descriptor}

namespace Resolved

/-- A descriptor has all the supertypes that its raw type declares. -/
theorem exists_genericSupertypes (resolved : registry.Resolved)
    (mem : lower.raw.element ∈ registry.declared) (here : Address) :
    ∃ supertypes, lower.genericSupertypes registry.scope here = .ok supertypes
      ∧ supertypes.map Descriptor.outline = lower.raw.supertypes.map Supertype.outline := by
  -- what stands in place of type parameters does not matter
  obtain ⟨supertypes, converted, instances⟩ :=
    resolved.exists_instances mem (fun _ _ => True) (fun _ _ _ => trivial) here
  refine ⟨supertypes, converted, Eq.symm ?_⟩
  rw [← List.forall₂_eq_eq_eq, List.forall₂_map_left_iff, List.forall₂_map_right_iff]
  exact (List.forall₂_map_left_iff.1 instances).imp fun _ _ isInstance =>
    (Supertype.outline_eq_of_isInstance isInstance).symm

/-- A step up leads to a supertype that the raw type declares. -/
theorem exists_outline_eq (resolved : registry.Resolved)
    (mem : lower.raw.element ∈ registry.declared) (step : lower.StepsUp registry.scope upper) :
    ∃ supertype ∈ lower.raw.element.supertypes, supertype.outline = upper.outline := by
  obtain ⟨here, supertypes, converted, inside⟩ := step
  obtain ⟨others, same, outlines⟩ := resolved.exists_genericSupertypes mem here
  cases converted.symm.trans same
  have inside := List.mem_map_of_mem (f := Descriptor.outline) inside
  rw [outlines] at inside
  obtain ⟨supertype, named, outline⟩ := List.mem_map.1 inside
  rw [RawType.supertypes] at named
  split at named
  · cases named
  · exact ⟨supertype, named, outline⟩

/-- There is a step up to every supertype that a raw type without dimensions declares. -/
theorem exists_stepsUp (resolved : registry.Resolved) {declaration : Declaration}
    (mem : declaration ∈ registry.declared) (raw : lower.raw = .ofDeclaration declaration)
    {supertype : Supertype} (named : supertype ∈ declaration.supertypes) :
    ∃ upper, lower.StepsUp registry.scope upper ∧ upper.outline = supertype.outline := by
  have element : lower.raw.element ∈ registry.declared := by rwa [raw]
  obtain ⟨supertypes, converted, outlines⟩ := resolved.exists_genericSupertypes element ⟨0, []⟩
  have named := List.mem_map_of_mem (f := Supertype.outline) named
  rw [raw] at outlines
  change _ = declaration.supertypes.map Supertype.outline at outlines
  rw [← outlines] at named
  obtain ⟨upper, inside, outline⟩ := List.mem_map.1 named
  exact ⟨upper, ⟨_, supertypes, converted, inside⟩, outline⟩

/-- What a descriptor reaches has its own outline or that of a supertype that its raw type
inherits. -/
theorem outline_cases_of_reaches (resolved : registry.Resolved)
    (mem : start.raw.element ∈ registry.declared) (reaches : start.Reaches registry.scope upper) :
    upper.outline = start.outline
      ∨ ∃ supertype, start.raw.element.Inherits supertype ∧ supertype.outline = upper.outline := by
  induction reaches using Relation.ReflTransGen.head_induction_on with
  | refl => exact .inl rfl
  | head step _ ih =>
    obtain ⟨between, named, outline⟩ := resolved.exists_outline_eq mem step
    have raw := congrArg (RawType.element ∘ Prod.fst) outline
    change between.declaration = _ at raw
    have betweenMem := resolved.declaration_mem mem named
    rw [raw] at betweenMem
    rcases ih betweenMem with same | ⟨supertype, inherits, same⟩
    · exact .inr ⟨between, .own named, outline.trans same.symm⟩
    · exact .inr ⟨supertype, .above named (raw ▸ inherits), same⟩

/-- A descriptor reaches every supertype that its raw type inherits. -/
theorem exists_reaches_of_inherits (resolved : registry.Resolved) {declaration : Declaration}
    (mem : declaration ∈ registry.declared) (raw : start.raw = .ofDeclaration declaration)
    {supertype : Supertype} (inherits : declaration.Inherits supertype) :
    ∃ upper, start.Reaches registry.scope upper ∧ upper.outline = supertype.outline := by
  induction inherits generalizing start with
  | own named =>
    obtain ⟨upper, step, outline⟩ := resolved.exists_stepsUp mem raw named
    exact ⟨upper, .single step, outline⟩
  | above named inherits ih =>
    obtain ⟨middle, step, outline⟩ := resolved.exists_stepsUp mem raw named
    obtain ⟨upper, reaches, same⟩ :=
      ih (resolved.declaration_mem mem named) (congrArg Prod.fst outline)
    exact ⟨upper, .head step reaches, same⟩

end Resolved

end Registry

end GenericTypes
