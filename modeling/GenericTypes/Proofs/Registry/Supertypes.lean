import Mathlib.Logic.Relation
import GenericTypes.Proofs.Registry.AnswerNames
import GenericTypes.Proofs.TypeUse.Parts

/-! # Supertypes of declared types

What a declared type says about the types above it. A signature resolves to a tree of uses in which
every raw type is an answer of the registry, every application has the right number of arguments,
and every bare name is a parameter or the name of the type itself. The parameters of a type differ
from each other, so each stands for one position. Definitions and look-ups take no answer back, so
this stays true of all types that have been declared. -/

namespace GenericTypes

/-- What a part of a supertype is that has been resolved for the type called `name` with some type
parameters: a raw type of which `known` holds, alone or with as many arguments as it has parameters,
the type itself, or one of its parameters. -/
def TypeUse.IsResolved (known : RawType → Prop) (name : String) (parameters : List String) :
    TypeUse → Prop
  | plain raw => known raw
  | named other => other = name
  | parameterized raw arguments => known raw ∧ arguments.length = raw.parameters.length
  | parameter other _ => other ∈ parameters
  | _ => False

/-- Whether the supertypes that a type was declared with have been resolved. -/
def Declaration.IsResolved (known : RawType → Prop) (declaration : Declaration) : Prop :=
  ∀ supertype ∈ declaration.supertypes, ∀ part ∈ supertype.toUse.parts,
    part.IsResolved known declaration.name declaration.parameters

section Resolved

variable {known other : RawType → Prop} {name : String} {parameters : List String}

/-- What holds of more raw types leaves a part resolved. -/
theorem TypeUse.IsResolved.imp {use : TypeUse} (weaker : ∀ raw, known raw → other raw)
    (resolved : use.IsResolved known name parameters) : use.IsResolved other name parameters := by
  cases use with
  | plain raw => exact weaker raw resolved
  | parameterized raw arguments => exact ⟨weaker raw resolved.1, resolved.2⟩
  | named name => exact resolved
  | parameter name bounds => exact resolved
  | _ => exact resolved

/-- What holds of more raw types leaves the supertypes of a declared type resolved. -/
theorem Declaration.IsResolved.imp {declaration : Declaration}
    (weaker : ∀ raw, known raw → other raw) (resolved : declaration.IsResolved known) :
    declaration.IsResolved other :=
  fun supertype mem part inside => (resolved supertype mem part inside).imp weaker

/-- A plain use of a known raw type is resolved. -/
theorem TypeUse.isResolved_plain {raw : RawType} (isKnown : known raw) :
    ∀ part ∈ (plain raw).parts, part.IsResolved known name parameters := by
  rw [forall_parts_iff]
  exact ⟨isKnown, nofun⟩

/-- A supertype is resolved when the use that it is taken from is. -/
theorem Supertype.isResolved_toUse {use : TypeUse} {supertype : Supertype}
    (isSupertype : ofUse? use = some supertype)
    (resolved : ∀ part ∈ use.parts, part.IsResolved known name parameters) :
    ∀ part ∈ supertype.toUse.parts, part.IsResolved known name parameters := by
  unfold ofUse? at isSupertype
  split at isSupertype
  · cases isSupertype
    exact resolved
  · rename_i declaration arguments
    cases isSupertype
    rw [toUse]
    split
    · -- without arguments only the raw type is left, which is known
      exact TypeUse.isResolved_plain (TypeUse.forall_parts_iff.1 resolved).1.1
    · exact resolved
  · cases isSupertype

end Resolved

/-! ## Names of type parameters -/

/-- Type parameters among which none is found to be illegal differ from each other and from the
earlier ones. -/
theorem Definition.nodup_of_illegalParameter? {earlier parameters : List String}
    (legal : illegalParameter? earlier parameters = none) :
    parameters.Nodup ∧ ∀ parameter ∈ parameters, parameter ∉ earlier := by
  induction parameters generalizing earlier with
  | nil => exact ⟨.nil, List.forall_mem_nil _⟩
  | cons parameter rest ih =>
    rw [illegalParameter?] at legal
    split at legal
    · cases legal
    · rename_i isNew
      obtain ⟨nodup, others⟩ := ih legal
      simp only [Bool.or_eq_true, List.contains_iff_mem, not_or] at isNew
      refine ⟨List.nodup_cons.2 ⟨fun mem => others parameter mem List.mem_cons_self, nodup⟩,
        List.forall_mem_cons.2 ⟨isNew.2, fun other mem earlierMem => ?_⟩⟩
      exact others other mem (List.mem_cons_of_mem parameter earlierMem)

/-- The type parameters in a definition without a fault differ from each other. -/
theorem Definition.nodup_parameters_of_fault? {definition : Definition}
    (noFault : definition.fault? = none) : definition.parameters.Nodup := by
  unfold fault? at noFault
  split at noFault
  · cases noFault
  · split at noFault
    · cases noFault
    · exact (nodup_of_illegalParameter? (Option.map_eq_none_iff.1 noFault)).1

/-! ## Signatures -/

/-- A bare name in a definition that resolves is a parameter, the type itself, or a name under which
a raw type is found. -/
theorem Definition.isResolved_of_resolveName {definition : Definition}
    {find : String → Except RegistryError RawType} {name : String} {use : TypeUse}
    (resolved : definition.resolveName find name = .ok use) :
    ∀ part ∈ use.parts, part.IsResolved (fun raw => ∃ name, find name = .ok raw)
      definition.name definition.parameters := by
  obtain ⟨parameter, rfl⟩ | ⟨self, rfl⟩ | ⟨raw, found, rfl⟩ := Registry.resolveName_cases resolved
  · rw [TypeUse.forall_parts_iff]
    exact ⟨parameter, nofun⟩
  · rw [TypeUse.forall_parts_iff]
    exact ⟨self, nofun⟩
  · exact TypeUse.isResolved_plain ⟨name, found⟩

/-- All parts of what a signature resolves to are resolved. -/
theorem Signature.isResolved_of_resolve {find : String → Except RegistryError RawType}
    {definition : Definition} {signature : Signature} {use : TypeUse}
    (resolved : signature.resolve find definition = .ok use) :
    ∀ part ∈ use.parts, part.IsResolved (fun raw => ∃ name, find name = .ok raw)
      definition.name definition.parameters := by
  induction signature using inductionOnArguments generalizing use with
  | malformed text =>
    rw [resolve] at resolved
    cases resolved
  | applied base arguments ih =>
    obtain ⟨-, resolved⟩ | ⟨-, raw, uses, found, arity, usesEq, rfl⟩ :=
      Registry.resolve_cases resolved
    · exact Definition.isResolved_of_resolveName resolved
    · rw [TypeUse.forall_parts_iff]
      refine ⟨⟨⟨base, found⟩, ?_⟩, fun argument mem => ?_⟩
      · rw [length_of_mapM usesEq, arity]
      · -- an argument comes from a signature inside this one
        obtain ⟨inner, member, innerEq⟩ := exists_of_mem_mapM usesEq mem
        exact ih inner member innerEq

namespace Registry

variable {registry : Registry} {declaration : Declaration} {definition : Definition}
  {name : String} {raw : RawType}

/-! ## What calls keep -/

/-- A supertype that an accepted definition names is resolved. -/
theorem isResolved_of_supertype {isWanted : Declaration → Bool} {fault : String → DefinitionFault}
    {signature : String} {supertype : Supertype}
    (accepted : Registry.supertype registry.find definition isWanted fault signature
      = .ok supertype) :
    ∀ part ∈ supertype.toUse.parts,
      part.IsResolved registry.Knows definition.name definition.parameters := by
  obtain ⟨-, use, resolved, isSupertype⟩ := exists_resolve_of_supertype accepted
  exact Supertype.isResolved_toUse isSupertype (Signature.isResolved_of_resolve resolved)

/-- The superclass in an accepted definition is resolved. -/
theorem WellFormed.isResolved_superclass (wellFormed : registry.WellFormed)
    {superclass : Supertype}
    (accepted : registry.superclass registry.find definition = .ok superclass) :
    ∀ part ∈ superclass.toUse.parts,
      part.IsResolved registry.Knows definition.name definition.parameters := by
  unfold Registry.superclass at accepted
  split at accepted
  · -- without a signature the superclass is the root, which is declared
    cases accepted
    exact TypeUse.isResolved_plain ⟨registry.topName, wellFormed.find_name wellFormed.top_mem⟩
  · exact isResolved_of_supertype accepted

/-- The supertypes in an accepted definition are resolved. -/
theorem WellFormed.isResolved_declaration (wellFormed : registry.WellFormed)
    (accepted : registry.declaration definition = .ok declaration) :
    declaration.IsResolved registry.Knows := by
  obtain ⟨-, -, interfaces, interfacesEq, shape⟩ := declaration_cases accepted
  have resolved : ∀ supertype ∈ interfaces, ∀ part ∈ supertype.toUse.parts,
      part.IsResolved registry.Knows definition.name definition.parameters := by
    intro supertype mem
    obtain ⟨signature, -, resolved⟩ := exists_of_mem_mapM interfacesEq mem
    exact isResolved_of_supertype resolved
  rcases shape with ⟨-, -, rfl⟩ | ⟨-, superclass, superclassEq, rfl⟩
  · exact resolved
  · intro supertype mem
    rcases List.mem_cons.1 mem with rfl | mem
    · exact wellFormed.isResolved_superclass superclassEq
    · exact resolved supertype mem

/-- What holds of every registry that calls lead to, besides being well-formed: the supertypes of
declared types are resolved. -/
structure Resolved (registry : Registry) : Prop extends registry.WellFormed where
  /-- The supertypes of a declared type are resolved. -/
  isResolved : ∀ declaration ∈ registry.declared, declaration.IsResolved registry.Knows

namespace Resolved

/-- The supertypes of a raw type have been resolved for it. -/
theorem isResolved_supertypes (resolved : registry.Resolved)
    (mem : raw.element ∈ registry.declared) :
    ∀ supertype ∈ raw.supertypes, ∀ part ∈ supertype.toUse.parts,
      part.IsResolved registry.Knows raw.name raw.parameters := by
  rw [RawType.supertypes, RawType.parameters]
  cases isArray : raw.isArray with
  | true => exact List.forall_mem_nil _
  | false =>
    rw [RawType.isArray, bne_eq_false_iff_eq] at isArray
    rw [RawType.name_of_dimensions_eq isArray]
    exact resolved.isResolved raw.element mem

/-- A definition keeps supertypes resolved. -/
theorem define (resolved : registry.Resolved) (definition : Definition) :
    (registry.define definition).2.Resolved where
  toWellFormed := resolved.toWellFormed.define definition
  isResolved := by
    have grows : ∀ raw, registry.Knows raw → (registry.define definition).2.Knows raw := by
      rintro raw ⟨name, found⟩
      exact ⟨name, resolved.find_define definition found⟩
    intro declaration mem
    have isResolved : declaration.IsResolved registry.Knows := by
      rw [declared_define] at mem
      rcases List.mem_append.1 mem with new | mem
      · cases accepted : registry.declaration definition with
        | error cause =>
          rw [accepted] at new
          cases new
        | ok declared =>
          rw [accepted] at new
          cases List.mem_singleton.1 new
          exact resolved.isResolved_declaration accepted
      · exact resolved.isResolved declaration mem
    exact isResolved.imp grows

/-- A look-up keeps supertypes resolved. -/
theorem remember (resolved : registry.Resolved) (name : String) :
    (registry.remember name).Resolved where
  toWellFormed := resolved.toWellFormed.remember name
  isResolved := by
    rw [declared_remember]
    intro declaration mem
    refine (resolved.isResolved declaration mem).imp ?_
    rintro raw ⟨asked, found⟩
    exact ⟨asked, (congrFun (find_remember registry name) asked).trans found⟩

end Resolved

/-- In every registry that calls lead to the supertypes of declared types are resolved. -/
theorem IsReachable.resolved (reached : registry.IsReachable) : registry.Resolved := by
  refine reached.preserves (fun _ definition resolved => resolved.define definition)
    (fun _ name resolved => resolved.remember name) ?_
  intro start initial
  cases initial with
  | ofTop topName =>
    refine ⟨wellFormed_ofTop topName, ?_⟩
    intro declaration mem
    cases List.mem_singleton.1 mem
    exact nofun
  | standard =>
    -- the standard registry comes from one without supertypes by definitions
    refine defineAll_preserves (fun definition _ _ resolved => resolved.define definition)
      ⟨wellFormed_primitives, ?_⟩
    intro declaration mem
    rcases mem_declared_primitives mem with rfl | ⟨type, rfl⟩
    · exact nofun
    · exact nofun

/-! ## Type parameters -/

/-- The type parameters of an accepted definition differ from each other. -/
theorem nodup_parameters_of_declaration
    (accepted : registry.declaration definition = .ok declaration) :
    declaration.parameters.Nodup := by
  obtain ⟨noFault, -, interfaces, -, shape⟩ := declaration_cases accepted
  have nodup := Definition.nodup_parameters_of_fault? noFault
  rcases shape with ⟨-, -, rfl⟩ | ⟨-, superclass, -, rfl⟩
  · exact nodup
  · exact nodup

/-- In every registry that calls lead to the type parameters of a declared type differ from each
other. -/
theorem IsReachable.nodup_parameters (reached : registry.IsReachable) :
    ∀ declaration ∈ registry.declared, declaration.parameters.Nodup := by
  let P := fun registry : Registry =>
    ∀ declaration ∈ registry.declared, declaration.parameters.Nodup
  have remember : ∀ registry name, P registry → P (registry.remember name) := by
    intro registry name nodup declaration mem
    rw [declared_remember] at mem
    exact nodup declaration mem
  have define : ∀ registry definition, P registry → P (registry.define definition).2 :=
    fun registry definition nodup =>
      define_preserves definition remember
        (fun _ _ accepted nodup =>
          List.forall_mem_cons.2 ⟨nodup_parameters_of_declaration accepted, nodup⟩) nodup
  refine reached.preserves define remember ?_
  intro start initial
  cases initial with
  | ofTop topName =>
    intro declaration mem
    cases List.mem_singleton.1 mem
    exact .nil
  | standard =>
    -- neither the root nor a primitive type has type parameters
    refine defineAll_preserves (P := P) (fun definition _ registry => define registry definition) ?_
    intro declaration mem
    rcases mem_declared_primitives mem with rfl | ⟨type, rfl⟩
    · exact .nil
    · exact .nil

/-! ## Answers under their own names -/

/-- Whether looking up the name of a raw type gives the raw type. An array that has the name of the
root is the exception: under this name the root is found. -/
def AnswersByName (registry : Registry) (raw : RawType) : Prop :=
  (registry.lookup raw.name).1 = .ok raw
    ∨ raw.isArray = true ∧ raw.name = registry.topName
      ∧ (registry.lookup raw.name).1 = .ok registry.top

/-- An array name can refer to a primitive type by its name, not only by its letter. -/
theorem isReadable_reference_name (type : Primitive) :
    (ArrayElement.reference type.name).IsReadable := by
  cases type <;> exact ⟨by decide, by decide, by decide⟩

/-- Only the root can be declared under a name with a leading bracket. -/
theorem WellFormed.eq_top_of_head? (wellFormed : registry.WellFormed)
    (declared : registry.declared? name = some declaration)
    (bracket : name.toList.head? = some '[') :
    declaration = .top registry.topName := by
  obtain ⟨mem, rfl⟩ := mem_of_declared? declared
  cases isTop : declaration.isTop with
  | true => exact wellFormed.eq_top declaration mem isTop
  | false => exact absurd bracket (wellFormed.legal declaration mem isTop).head?_ne

/-- What a registry knows is found under its own name, unless that is the name of the root. -/
theorem WellFormed.answersByName (wellFormed : registry.WellFormed) (known : registry.Knows raw) :
    registry.AnswersByName raw := by
  obtain ⟨name, found⟩ := known
  have found : registry.find name = .ok raw := found
  rcases wellFormed.name_cases_of_find found with
    ⟨rfl, -⟩ | ⟨-, -, positive, notPrimitive, type, declared⟩
  · exact .inl found
  · -- an array of a type with the name of a primitive one, read from the letter of that one
    have bracket := RawType.head?_name positive
    cases namesake : registry.declared? raw.name with
    | some declaration =>
      have isRoot := wellFormed.eq_top_of_head? namesake bracket
      subst isRoot
      refine .inr ⟨bne_iff_ne.2 positive, (mem_of_declared? namesake).2.symm, ?_⟩
      show registry.find raw.name = _
      rw [find, known?, namesake]
      rfl
    | none =>
      have written : raw.name = ArrayName.text ⟨.reference type.name, raw.dimensions⟩ := by
        rw [RawType.name_of_dimensions_ne positive,
          Declaration.arrayElement_of_isPrimitive_eq_false notPrimitive,
          (mem_of_declared? declared).2]
      have element : registry.element? (.reference type.name) = some raw.element := by
        rw [element?, declared, Option.filter_some, notPrimitive]
        rfl
      have described : registry.array? raw.name = some ⟨raw.element, raw.dimensions⟩ := by
        rw [written]
        exact array?_of_ofText?
          (ArrayName.ofText?_text (isReadable_reference_name type) positive) element
      refine .inl ?_
      show registry.find raw.name = _
      rw [wellFormed.find_eq, resolve?, namesake, described]
      exact congrArg Except.ok (RawType.eq_of_parts rfl rfl)

/-- What answers under its own name is found there if the name of the root has no leading
bracket. -/
theorem lookup_name_of_answersByName (answers : registry.AnswersByName raw)
    (plain : registry.topName.toList.head? ≠ some '[') :
    (registry.lookup raw.name).1 = .ok raw := by
  rcases answers with found | ⟨isArray, namesake, -⟩
  · exact found
  · rw [← namesake] at plain
    exact absurd (RawType.head?_name (bne_iff_ne.1 isArray)) plain

/-! ## The hierarchy above a declared type -/

/-- One step up from a raw type leads to a declared type that its element was declared with. -/
theorem mem_parents_cases {upper : RawType} (mem : upper ∈ raw.parents) :
    ∃ parent ∈ raw.element.parents, upper = .ofDeclaration parent := by
  rw [RawType.parents, RawType.supertypes] at mem
  split at mem
  · cases mem
  · obtain ⟨supertype, named, rfl⟩ := List.mem_map.1 mem
    exact ⟨supertype.declaration, List.mem_map_of_mem named, rfl⟩

/-- Steps up from a declared type lead to declared types that are smaller trees. -/
theorem WellFormed.above_spec (wellFormed : registry.WellFormed)
    (mem : declaration ∈ registry.declared) {upper : RawType}
    (above : Relation.TransGen (fun lower upper => upper ∈ lower.parents)
      (.ofDeclaration declaration) upper) :
    ∃ parent ∈ registry.declared, upper = .ofDeclaration parent
      ∧ sizeOf parent < sizeOf declaration := by
  induction above with
  | single step =>
    obtain ⟨parent, isParent, rfl⟩ := mem_parents_cases step
    exact ⟨parent, wellFormed.parent_mem declaration mem parent isParent, rfl,
      Declaration.sizeOf_lt_of_mem_parents isParent⟩
  | tail _ step ih =>
    obtain ⟨middle, middleMem, rfl, smaller⟩ := ih
    obtain ⟨parent, isParent, rfl⟩ := mem_parents_cases step
    exact ⟨parent, wellFormed.parent_mem middle middleMem parent isParent, rfl,
      (Declaration.sizeOf_lt_of_mem_parents isParent).trans smaller⟩

/-- No declared type has the name of a type above it. -/
theorem WellFormed.name_ne_of_above (wellFormed : registry.WellFormed)
    (mem : declaration ∈ registry.declared) {upper : RawType}
    (above : Relation.TransGen (fun lower upper => upper ∈ lower.parents)
      (.ofDeclaration declaration) upper) : upper.name ≠ declaration.name := by
  obtain ⟨parent, parentMem, rfl, smaller⟩ := wellFormed.above_spec mem above
  intro same
  rw [wellFormed.eq_of_name_eq parentMem mem same] at smaller
  exact Nat.lt_irrefl _ smaller

/-- **The types above a declared type are in order.** In a registry that calls lead to, take a
declared type that is neither the root nor primitive. It is an interface without a superclass, or a
class whose superclass is a class; its interfaces are interfaces. Inside these supertypes, at any
depth, every raw type answers under its own name, every application has as many arguments as the raw
type has parameters, every parameter is one of the type, and a type known by its name only is the
type itself; nothing else occurs. Steps up never lead back. -/
theorem IsReachable.supertypes_resolved_and_acyclic (reached : registry.IsReachable)
    (mem : declaration ∈ registry.declared) (notTop : declaration.isTop = false)
    (notPrimitive : declaration.isPrimitive = false) :
    let raw := RawType.ofDeclaration declaration
    (raw.isInterface = true ∧ raw.superclass? = none
        ∨ raw.isClass = true ∧ ∃ superclass, raw.superclass? = some superclass
          ∧ superclass.declaration.isClass = true)
      ∧ (∀ supertype ∈ raw.interfaces, supertype.declaration.isInterface = true)
      ∧ (∀ supertype ∈ raw.supertypes, ∀ part ∈ supertype.toUse.parts,
          part.IsResolved registry.AnswersByName declaration.name declaration.parameters)
      ∧ (ReachableFrom standard registry ∨ registry.topName.toList.head? ≠ some '[' →
          ∀ supertype ∈ raw.supertypes, ∀ part ∈ supertype.toUse.parts,
            part.IsResolved (fun raw => (registry.lookup raw.name).1 = .ok raw)
              declaration.name declaration.parameters)
      ∧ ∀ upper, Relation.TransGen (fun lower upper => upper ∈ lower.parents) raw upper →
          upper.name ≠ declaration.name := by
  have resolved := reached.resolved
  have answers : declaration.IsResolved registry.AnswersByName :=
    (resolved.isResolved declaration mem).imp fun _ known => resolved.answersByName known
  refine ⟨?_, resolved.interface_isInterface declaration mem, answers, ?_, ?_⟩
  · cases declaration with
    | top name => cases notTop
    | primitive type => cases notPrimitive
    | ordinary name parameters superclass interfaces =>
      exact .inr ⟨rfl, superclass, rfl, resolved.superclass_isClass _ mem superclass rfl⟩
    | interface name parameters interfaces => exact .inl ⟨rfl, rfl⟩
  · intro start
    have plain : registry.topName.toList.head? ≠ some '[' := by
      rcases start with reached | plain
      · rw [reached.populated.topName_eq]
        decide
      · exact plain
    exact answers.imp fun _ answer => lookup_name_of_answersByName answer plain
  · exact fun upper above => resolved.name_ne_of_above mem above

/-- A registry whose root has the name of the arrays of a class, which has the name of a primitive
type itself. -/
def namesake : Registry :=
  (((((ofTop "[Lint;").define { name := "int" }).2).define
    { name := "Box", isInterface := true, parameters := ["T"] }).2.define
      { name := "A", interfaces := ["Box<[I>"] }).2

/-- The class whose arrays have the name of the root. -/
def namesakeElement : Declaration :=
  .ordinary "int" [] ⟨.top "[Lint;", []⟩ []

/-- A class inside whose supertypes such an array stands. -/
def namesakeUser : Declaration :=
  .ordinary "A" [] ⟨.top "[Lint;", []⟩
    [⟨.interface "Box" ["T"] [], [.plain ⟨namesakeElement, 1⟩]⟩]

/-- What is declared, the latest first. -/
theorem declared_namesake : namesake.declared
    = [namesakeUser, .interface "Box" ["T"] [], namesakeElement, .top "[Lint;"] := by
  have first : (ofTop "[Lint;").define { name := "int" }
      = (.ok namesakeElement, (ofTop "[Lint;").insert namesakeElement) := by
    refine define_eq_of_declarationBy ?_ (by decide)
    rfl
  have second : ((ofTop "[Lint;").insert namesakeElement).define
      { name := "Box", isInterface := true, parameters := ["T"] }
      = (.ok (.interface "Box" ["T"] []), ((ofTop "[Lint;").insert namesakeElement).insert
        (.interface "Box" ["T"] [])) := by
    refine define_eq_of_declarationBy ?_ (by decide)
    rfl
  have third : (((ofTop "[Lint;").insert namesakeElement).insert
      (.interface "Box" ["T"] [])).declaration { name := "A", interfaces := ["Box<[I>"] }
      = .ok namesakeUser := by
    have outer : Signature.split? "Box<[I>" = some ("Box", ["[I"]) := by decide
    have inner : Signature.split? "[I" = some ("[I", []) := by decide
    have signature : Signature.ofText "Box<[I>" = .applied "Box" [.applied "[I" []] := by
      rw [Signature.ofText_of_split? outer, List.map_cons, Signature.ofText_of_split? inner]
      rfl
    simp only [declaration, declarationBy, interfaces, List.mapM_cons, List.mapM_nil, supertype,
      signature, Signature.resolve_applied]
    rfl
  rw [namesake, first, second, declared_define, third]
  rfl

/-- Calls lead there. -/
theorem isReachable_namesake : namesake.IsReachable :=
  ⟨ofTop "[Lint;", .ofTop _, .define (.define (.define .start _) _) _⟩

/-- A class is declared even where an array in its supertypes has the name of the root. -/
theorem IsReachable.supertypes_resolved_namesakeUser :
    namesake.IsReachable ∧ namesakeUser ∈ namesake.declared ∧ namesakeUser.isTop = false
      ∧ namesakeUser.isPrimitive = false
      ∧ namesake.AnswersByName ⟨namesakeElement, 1⟩ := by
  have mem : namesakeUser ∈ namesake.declared := declared_namesake ▸ List.mem_cons_self
  obtain ⟨-, -, resolved, -⟩ := isReachable_namesake.supertypes_resolved_and_acyclic mem rfl rfl
  have argument := resolved ⟨.interface "Box" ["T"] [], [.plain ⟨namesakeElement, 1⟩]⟩
    (List.mem_cons_of_mem _ List.mem_cons_self)
  have inside := (TypeUse.forall_parts_iff.1 argument).2 (.plain ⟨namesakeElement, 1⟩)
    List.mem_cons_self
  exact ⟨isReachable_namesake, mem, rfl, rfl, (TypeUse.forall_parts_iff.1 inside).1⟩

/-- The array in the supertypes of that class is not found under its own name: looking it up gives
the root. -/
theorem lookup_name_of_namesake :
    namesake.IsReachable ∧ namesakeUser ∈ namesake.declared ∧ namesakeUser.isTop = false
      ∧ namesakeUser.isPrimitive = false
      ∧ ∃ supertype ∈ namesakeUser.supertypes,
        .plain ⟨namesakeElement, 1⟩ ∈ supertype.toUse.parts
          ∧ (namesake.lookup (RawType.mk namesakeElement 1).name).1
            = .ok (.ofDeclaration (.top "[Lint;"))
          ∧ RawType.mk namesakeElement 1 ≠ .ofDeclaration (.top "[Lint;") := by
  refine ⟨isReachable_namesake, declared_namesake ▸ List.mem_cons_self, rfl, rfl,
    ⟨.interface "Box" ["T"] [], [.plain ⟨namesakeElement, 1⟩]⟩,
    List.mem_cons_of_mem _ List.mem_cons_self, ?_, ?_, nofun⟩
  · have inside : TypeUse.plain ⟨namesakeElement, 1⟩
        ∈ (TypeUse.plain ⟨namesakeElement, 1⟩).parts := by
      rw [TypeUse.parts_eq]
      exact List.mem_cons_self
    rw [TypeUse.parts_eq]
    exact List.mem_cons_of_mem _ (List.mem_flatMap_of_mem List.mem_cons_self inside)
  · show namesake.find _ = _
    have name : (RawType.mk namesakeElement 1).name = "[Lint;" := by decide
    rw [name, find, known?, declared?, declared_namesake]
    rfl

end Registry

end GenericTypes
