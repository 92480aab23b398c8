import GenericTypes.Proofs.RawType.Level
import GenericTypes.Proofs.Registry.Supertypes

/-! # Inherited supertypes

The supertypes that a type has are those that it declares and those that the types above it declare,
each with the arguments of its declaration. What accepts a type is inherited by it, but for the type
itself and for the root, which an interface does not inherit. -/

namespace GenericTypes

/-- Whether a supertype is declared by a type or by one of the types above it. -/
inductive Declaration.Inherits : Declaration → Supertype → Prop
  /-- The type itself declares the supertype. -/
  | own {declaration : Declaration} {supertype : Supertype}
    (mem : supertype ∈ declaration.supertypes) : Inherits declaration supertype
  /-- A type that is directly above it inherits the supertype. -/
  | above {declaration : Declaration} {between supertype : Supertype}
    (mem : between ∈ declaration.supertypes) (inherits : Inherits between.declaration supertype) :
    Inherits declaration supertype

/-- The type in a supertype is directly above the type that declares the supertype. -/
theorem Declaration.mem_parents {declaration : Declaration} {supertype : Supertype}
    (named : supertype ∈ declaration.supertypes) : supertype.declaration ∈ declaration.parents :=
  List.mem_map_of_mem named

namespace Registry

variable {registry : Registry} {declaration target : Declaration} {supertype : Supertype}

/-- The type in a supertype of a declared type is declared. -/
theorem WellFormed.declaration_mem (wellFormed : registry.WellFormed)
    (mem : declaration ∈ registry.declared) (named : supertype ∈ declaration.supertypes) :
    supertype.declaration ∈ registry.declared :=
  wellFormed.parent_mem declaration mem _ (Declaration.mem_parents named)

/-- What accepts an inherited supertype accepts the type that inherits it. -/
theorem WellFormed.accepts_of_inherits (wellFormed : registry.WellFormed)
    (targetMem : target ∈ registry.declared) (mem : declaration ∈ registry.declared)
    (inherits : declaration.Inherits supertype)
    (accepts : target.accepts supertype.declaration = true) :
    target.accepts declaration = true := by
  induction inherits with
  | own named =>
    exact wellFormed.accepts_of_mem_parents targetMem mem (Declaration.mem_parents named) accepts
  | above named inherits ih =>
    exact wellFormed.accepts_of_mem_parents targetMem mem (Declaration.mem_parents named)
      (ih (wellFormed.declaration_mem mem named) accepts)

/-- What a type inherits is declared and not primitive. -/
theorem WellFormed.mem_of_inherits (wellFormed : registry.WellFormed)
    (mem : declaration ∈ registry.declared) (inherits : declaration.Inherits supertype) :
    supertype.declaration ∈ registry.declared ∧ supertype.declaration.isPrimitive = false := by
  induction inherits with
  | own named =>
    exact ⟨wellFormed.declaration_mem mem named,
      wellFormed.parent_isPrimitive_eq_false mem (Declaration.mem_parents named)⟩
  | above named inherits ih => exact ih (wellFormed.declaration_mem mem named)

/-- A type inherits every type above it. -/
theorem exists_inherits_of_above {lower upper : Declaration} (above : lower.Above upper) :
    ∃ supertype, lower.Inherits supertype ∧ supertype.declaration = upper := by
  induction above using Relation.TransGen.head_induction_on with
  | single isParent =>
    obtain ⟨supertype, named, rfl⟩ := List.mem_map.1 isParent
    exact ⟨supertype, .own named, rfl⟩
  | head isParent _ ih =>
    obtain ⟨between, named, rfl⟩ := List.mem_map.1 isParent
    obtain ⟨supertype, inherits, rfl⟩ := ih
    exact ⟨supertype, .above named inherits, rfl⟩

/-- A class other than the root inherits the root. -/
theorem WellFormed.exists_inherits_top (wellFormed : registry.WellFormed)
    (mem : declaration ∈ registry.declared) (isClass : declaration.isClass = true)
    (notTop : declaration.isTop = false) :
    ∃ supertype, declaration.Inherits supertype ∧ supertype.declaration.isTop = true := by
  induction declaration using Declaration.inductionOnParents with
  | step child ih =>
    cases child with
    | top name => cases notTop
    | primitive type => cases isClass
    | interface name parameters interfaces => cases isClass
    | ordinary name parameters superclass interfaces =>
      -- the superclasses of a class are classes, up to the root
      have named : superclass ∈ (Declaration.ordinary name parameters superclass
          interfaces).supertypes := List.mem_cons_self
      have parentMem := wellFormed.declaration_mem mem named
      have parentKind := wellFormed.superclass_isClass _ mem superclass rfl
      cases top : superclass.declaration.isTop with
      | true => exact ⟨superclass, .own named, top⟩
      | false =>
        obtain ⟨supertype, inherits, isTop⟩ :=
          ih _ (Declaration.mem_parents named) parentMem parentKind top
        exact ⟨supertype, .above named inherits, isTop⟩

/-- A type without type parameters is inherited without arguments. -/
theorem Resolved.arguments_eq_nil (resolved : registry.Resolved)
    (mem : declaration ∈ registry.declared) (inherits : declaration.Inherits supertype)
    (plain : supertype.declaration.parameters = []) : supertype.arguments = [] := by
  induction inherits with
  | @own declaration supertype named =>
    have isResolved := resolved.isResolved declaration mem supertype named
    rw [Supertype.toUse] at isResolved
    split at isResolved
    · exact List.isEmpty_iff.1 ‹_›
    · -- as many arguments as type parameters were given
      have arity := (TypeUse.forall_parts_iff.1 isResolved).1.2
      change _ = supertype.declaration.parameters.length at arity
      rw [plain] at arity
      exact List.eq_nil_of_length_eq_zero arity
  | above named inherits ih => exact ih (resolved.declaration_mem mem named) plain

/-- What accepts a type is that type or inherited by it, unless it is the root and the type is an
interface. -/
theorem WellFormed.exists_inherits_of_accepts (wellFormed : registry.WellFormed)
    (targetMem : target ∈ registry.declared) (mem : declaration ∈ registry.declared)
    (kind : declaration.isPrimitive = false) (accepts : target.accepts declaration = true)
    (different : target ≠ declaration)
    (inherited : target.isTop = true → declaration.isInterface = false) :
    ∃ supertype, declaration.Inherits supertype ∧ supertype.declaration = target := by
  cases top : target.isTop with
  | false =>
    exact exists_inherits_of_above (wellFormed.above_of_accepts mem targetMem accepts different top)
  | true =>
    have isRoot := wellFormed.eq_top target targetMem top
    have notInterface := inherited top
    have notTop : declaration.isTop = false := by
      cases isTop : declaration.isTop with
      | false => rfl
      | true => exact absurd (isRoot.trans (wellFormed.eq_top declaration mem isTop).symm) different
    have isClass : declaration.isClass = true := by
      cases declaration with
      | primitive type => cases kind
      | interface name parameters interfaces => cases notInterface
      | _ => rfl
    obtain ⟨supertype, inherits, isTop⟩ := wellFormed.exists_inherits_top mem isClass notTop
    have supertypeMem := (wellFormed.mem_of_inherits mem inherits).1
    exact ⟨supertype, inherits, (wellFormed.eq_top _ supertypeMem isTop).trans isRoot.symm⟩

end Registry

end GenericTypes
