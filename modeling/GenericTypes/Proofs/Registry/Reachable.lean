import GenericTypes.Registry.Standard
import GenericTypes.Proofs.Registry.Remembering
import GenericTypes.Proofs.Success

/-! # Reachable registries

A registry changes through calls: types are defined one by one or loaded from a text, and names are
looked up. What a successful definition can have been is said once, by `declaration_cases` and
`supertype_cases`; an invariant of registries has to be checked for one definition and one look-up
only, and `ReachableFrom.preserves` carries it to every registry that calls lead to. -/

namespace GenericTypes

namespace Registry

/-- The registries that some calls lead to from a given one. A call that fails is a call too. -/
inductive ReachableFrom (start : Registry) : Registry → Prop
  /-- No call. -/
  | start : ReachableFrom start start
  /-- One more definition. -/
  | define {registry : Registry} (reached : ReachableFrom start registry)
      (definition : Definition) : ReachableFrom start (registry.define definition).2
  /-- One more text of definitions. -/
  | loadJson {registry : Registry} (reached : ReachableFrom start registry) (text : String) :
      ReachableFrom start (registry.loadJson text).2
  /-- One more file of definitions. -/
  | loadFile {registry : Registry} (reached : ReachableFrom start registry)
      (content : Option String) : ReachableFrom start (registry.loadFile content).2
  /-- One more look-up. -/
  | lookup {registry : Registry} (reached : ReachableFrom start registry) (name : String) :
      ReachableFrom start (registry.lookup name).2

/-! ## Invariants -/

section Invariant

variable {P : Registry → Prop}

/-- What each of several definitions preserves is preserved by all of them. -/
theorem defineAll_preserves {definitions : List Definition}
    (define : ∀ definition ∈ definitions, ∀ registry, P registry →
      P (registry.define definition).2)
    {registry : Registry} (holds : P registry) : P (registry.defineAll definitions).2 := by
  induction definitions generalizing registry with
  | nil => exact holds
  | cons definition rest ih =>
    rw [List.forall_mem_cons] at define
    have next := define.1 registry holds
    rw [defineAll]
    cases result : registry.define definition with
    | mk outcome changed =>
      rw [result] at next
      cases outcome with
      | ok declaration => exact ih define.2 next
      | error cause =>
        -- the remaining definitions are not tried
        exact next

/-- What every definition preserves is preserved by loading a text. -/
theorem loadJson_preserves
    (define : ∀ registry definition, P registry → P (registry.define definition).2)
    (text : String) {registry : Registry} (holds : P registry) :
    P (registry.loadJson text).2 := by
  unfold loadJson
  split
  · exact holds
  · exact defineAll_preserves (fun definition _ registry => define registry definition) holds

/-- What every definition and every look-up preserves holds of every registry that calls lead to
from one of which it holds. -/
theorem ReachableFrom.preserves {start registry : Registry}
    (reached : ReachableFrom start registry)
    (define : ∀ registry definition, P registry → P (registry.define definition).2)
    (remember : ∀ registry name, P registry → P (registry.remember name)) (holds : P start) :
    P registry := by
  induction reached with
  | start => exact holds
  | define _ definition ih => exact define _ definition ih
  | loadJson _ text ih => exact loadJson_preserves define text ih
  | @loadFile registry _ content ih =>
    cases content with
    | none => exact ih
    | some text => exact loadJson_preserves define text ih
  | lookup _ name ih => exact remember _ name ih

end Invariant

/-- Calls after calls are calls. -/
theorem ReachableFrom.trans {start middle registry : Registry}
    (first : ReachableFrom start middle) (second : ReachableFrom middle registry) :
    ReachableFrom start registry := by
  induction second with
  | start => exact first
  | define _ definition ih => exact ih.define definition
  | loadJson _ text ih => exact ih.loadJson text
  | loadFile _ content ih => exact ih.loadFile content
  | lookup _ name ih => exact ih.lookup name

/-! ## Successful definitions -/

/-- What a name in a definition stands for: a parameter, the type that is defined, or what is found
under the name. -/
theorem resolveName_cases {definition : Definition} {find : String → Except RegistryError RawType}
    {name : String} {use : TypeUse} (resolved : definition.resolveName find name = .ok use) :
    (name ∈ definition.parameters ∧ use = .parameter name [])
      ∨ (name = definition.name ∧ use = .named name)
      ∨ ∃ raw, find name = .ok raw ∧ use = .plain raw := by
  unfold Definition.resolveName at resolved
  split at resolved
  · rename_i parameter
    cases resolved
    exact .inl ⟨List.contains_iff_mem.1 parameter, rfl⟩
  · split at resolved
    · rename_i self
      cases resolved
      exact .inr (.inl ⟨beq_iff_eq.1 self, rfl⟩)
    · obtain ⟨raw, found, resolved⟩ := ok_of_bind_eq_ok resolved
      cases resolved
      exact .inr (.inr ⟨raw, found, rfl⟩)

/-- What a signature in a definition stands for: what its name stands for if that is alone, and
otherwise what is found under the name, applied to what the arguments stand for. -/
theorem resolve_cases {definition : Definition} {find : String → Except RegistryError RawType}
    {base : String} {arguments : List Signature} {use : TypeUse}
    (resolved : (Signature.applied base arguments).resolve find definition = .ok use) :
    (arguments = [] ∧ definition.resolveName find base = .ok use)
      ∨ arguments ≠ [] ∧ ∃ raw uses, find base = .ok raw
        ∧ raw.parameters.length = arguments.length
        ∧ arguments.mapM (Signature.resolve find definition) = .ok uses
        ∧ use = .parameterized raw uses := by
  rw [Signature.resolve_applied] at resolved
  split at resolved
  · rename_i alone
    exact .inl ⟨List.isEmpty_iff.1 alone, resolved⟩
  · rename_i applied
    obtain ⟨raw, found, resolved⟩ := ok_of_bind_eq_ok resolved
    split at resolved
    · cases resolved
    · rename_i arity
      obtain ⟨uses, usesEq, resolved⟩ := ok_of_bind_eq_ok resolved
      cases resolved
      exact .inr ⟨fun alone => applied (List.isEmpty_iff.2 alone), raw, uses, found,
        by simpa using arity, usesEq, rfl⟩

/-- The raw type that a signature in a definition is built on is one that the registry finds. -/
theorem find_of_resolve {find : String → Except RegistryError RawType} {definition : Definition}
    {signature : Signature} {use : TypeUse} {raw : RawType}
    (resolved : signature.resolve find definition = .ok use) (built : use.raw? = some raw) :
    ∃ name, find name = .ok raw := by
  cases signature with
  | malformed text =>
    rw [Signature.resolve] at resolved
    cases resolved
  | applied base arguments =>
    obtain ⟨-, resolved⟩ | ⟨-, known, uses, found, -, -, rfl⟩ := resolve_cases resolved
    · -- parameters and the type that is defined are no raw types
      obtain ⟨-, rfl⟩ | ⟨-, rfl⟩ | ⟨known, found, rfl⟩ := resolveName_cases resolved
      · cases built
      · cases built
      · cases built
        exact ⟨base, found⟩
    · cases built
      exact ⟨base, found⟩

/-- A use that is a supertype is built on the raw type of the supertype. -/
theorem raw?_of_ofUse? {use : TypeUse} {supertype : Supertype}
    (isSupertype : Supertype.ofUse? use = some supertype) :
    use.raw? = some (.ofDeclaration supertype.declaration) := by
  unfold Supertype.ofUse? at isSupertype
  split at isSupertype <;> cases isSupertype <;> rfl

/-- A supertype that a definition names is what its signature resolves to, if that has the kind that
is wanted. -/
theorem exists_resolve_of_supertype {registry : Registry} {definition : Definition}
    {isWanted : Declaration → Bool} {fault : String → DefinitionFault} {signature : String}
    {supertype : Supertype}
    (accepted : Registry.supertype registry.find definition isWanted fault signature
      = .ok supertype) :
    isWanted supertype.declaration = true
      ∧ ∃ use, (Signature.ofText signature).resolve registry.find definition = .ok use
        ∧ Supertype.ofUse? use = some supertype := by
  unfold Registry.supertype at accepted
  obtain ⟨use, resolved, accepted⟩ := ok_of_bind_eq_ok accepted
  split at accepted
  · rename_i found filtered
    cases accepted
    obtain ⟨isSupertype, wanted⟩ := Option.filter_eq_some_iff.1 filtered
    exact ⟨wanted, use, resolved, isSupertype⟩
  · cases accepted

/-- A supertype that a definition names is a type that the registry finds, of the kind that is
wanted. -/
theorem supertype_cases {registry : Registry} {definition : Definition}
    {isWanted : Declaration → Bool} {fault : String → DefinitionFault} {signature : String}
    {supertype : Supertype}
    (accepted : Registry.supertype registry.find definition isWanted fault signature
      = .ok supertype) :
    isWanted supertype.declaration = true
      ∧ ∃ name, registry.find name = .ok (.ofDeclaration supertype.declaration) := by
  obtain ⟨wanted, use, resolved, isSupertype⟩ := exists_resolve_of_supertype accepted
  exact ⟨wanted, find_of_resolve resolved (raw?_of_ofUse? isSupertype)⟩

/-- What a definition that is accepted declares: an interface without a superclass, or a class. The
names are in order and the name is new. -/
theorem declaration_cases {registry : Registry} {definition : Definition}
    {declaration : Declaration} (accepted : registry.declaration definition = .ok declaration) :
    definition.fault? = none ∧ registry.declared? definition.name = none ∧
      ∃ interfaces, Registry.interfaces registry.find definition = .ok interfaces ∧
        (definition.isInterface = true ∧ definition.superclass = none
            ∧ declaration = .interface definition.name definition.parameters interfaces
          ∨ definition.isInterface = false ∧ ∃ superclass,
            registry.superclass registry.find definition = .ok superclass
            ∧ declaration
              = .ordinary definition.name definition.parameters superclass interfaces) := by
  unfold Registry.declaration declarationBy at accepted
  cases fault : definition.fault? with
  | some fault =>
    rw [fault] at accepted
    cases accepted
  | none =>
    rw [fault] at accepted
    cases known : registry.contains definition.name with
    | true =>
      rw [known] at accepted
      cases accepted
    | false =>
      rw [known] at accepted
      have new : registry.declared? definition.name = none := by
        simpa [contains] using known
      refine ⟨rfl, new, ?_⟩
      cases kind : definition.isInterface with
      | true =>
        rw [kind] at accepted
        cases superclass : definition.superclass with
        | some signature =>
          rw [superclass] at accepted
          cases accepted
        | none =>
          rw [superclass] at accepted
          obtain ⟨interfaces, interfacesEq, accepted⟩ := ok_of_bind_eq_ok accepted
          cases accepted
          exact ⟨interfaces, interfacesEq, .inl ⟨rfl, rfl, rfl⟩⟩
      | false =>
        rw [kind] at accepted
        obtain ⟨superclass, superclassEq, accepted⟩ := ok_of_bind_eq_ok accepted
        obtain ⟨interfaces, interfacesEq, accepted⟩ := ok_of_bind_eq_ok accepted
        cases accepted
        exact ⟨interfaces, interfacesEq, .inr ⟨rfl, superclass, superclassEq, rfl⟩⟩

/-- A definition whose names are in order and whose name is new is accepted if its supertypes are
found: as an interface if it has no superclass, or as a class. -/
theorem declaration_of_supertypes {registry : Registry} {definition : Definition}
    {declaration : Declaration} {interfaces : List Supertype} (sound : definition.fault? = none)
    (new : registry.declared? definition.name = none)
    (interfacesEq : Registry.interfaces registry.find definition = .ok interfaces)
    (shape : definition.isInterface = true ∧ definition.superclass = none
          ∧ declaration = .interface definition.name definition.parameters interfaces
        ∨ definition.isInterface = false ∧ ∃ superclass,
          registry.superclass registry.find definition = .ok superclass
          ∧ declaration
            = .ordinary definition.name definition.parameters superclass interfaces) :
    registry.declaration definition = .ok declaration := by
  have free : registry.contains definition.name = false := by
    rw [contains, new]
    rfl
  unfold Registry.declaration declarationBy
  rw [sound, free, interfacesEq]
  rcases shape with ⟨kind, none, rfl⟩ | ⟨kind, superclass, superclassEq, rfl⟩
  · rw [kind, none]
    rfl
  · rw [kind, superclassEq]
    rfl

/-- What a definition that is accepted declares has the name of the definition. -/
theorem name_of_declaration {registry : Registry} {definition : Definition}
    {declaration : Declaration} (accepted : registry.declaration definition = .ok declaration) :
    declaration.name = definition.name := by
  obtain ⟨-, -, interfaces, -, ⟨-, -, rfl⟩ | ⟨-, superclass, -, rfl⟩⟩ := declaration_cases accepted
  · rfl
  · rfl

/-! ## One definition -/

section Define

variable {P : Registry → Prop} {registry : Registry} {definition : Definition}

/-- A definition looks some names up, and then its type is declared or it is rejected. The check for
a second type of the same name finds nothing that the first check has not found. -/
theorem define_cases (registry : Registry) (definition : Definition) :
    ∃ names,
      (∃ declaration, registry.declaration definition = .ok declaration
        ∧ registry.define definition
          = (.ok declaration, (registry.rememberAll names).insert declaration))
      ∨ ∃ cause, registry.declaration definition = .error cause
        ∧ registry.define definition = (.error cause, registry.rememberAll names) := by
  obtain ⟨names, given⟩ := Action.gives_declarationBy registry definition registry rfl
  refine ⟨names, ?_⟩
  rw [define, Action.bind_apply, given]
  cases accepted : registry.declaration definition with
  | error cause =>
    rw [declaration] at accepted
    rw [accepted]
    exact .inr ⟨cause, rfl, rfl⟩
  | ok declaration =>
    have new : (registry.rememberAll names).contains declaration.name = false := by
      obtain ⟨-, new, -⟩ := declaration_cases accepted
      rw [contains, declared?, declared_rememberAll, name_of_declaration accepted, ← declared?, new]
      rfl
    rw [Registry.declaration] at accepted
    simp only [accepted, Action.bind_apply, Action.insert_apply, new]
    exact .inl ⟨declaration, rfl, rfl⟩

/-- What a definition declares does not depend on what is remembered. -/
@[simp] theorem declaration_rememberAll (registry : Registry) (names : List String)
    (definition : Definition) :
    (registry.rememberAll names).declaration definition = registry.declaration definition := by
  simp only [declaration, declarationBy, superclass, contains, declared?, declared_rememberAll,
    topName_rememberAll, find_rememberAll]

/-- The answer to a definition is what it declares. -/
theorem define_fst (registry : Registry) (definition : Definition) :
    (registry.define definition).1 = registry.declaration definition := by
  obtain ⟨names, ⟨declaration, accepted, eq⟩ | ⟨cause, rejected, eq⟩⟩ :=
    define_cases registry definition
  · rw [eq, accepted]
  · rw [eq, rejected]

/-- After a definition its type is declared, and otherwise the types that were. -/
theorem declared_define (registry : Registry) (definition : Definition) :
    (registry.define definition).2.declared
      = (registry.declaration definition).toOption.toList ++ registry.declared := by
  obtain ⟨names, ⟨declaration, accepted, eq⟩ | ⟨cause, rejected, eq⟩⟩ :=
    define_cases registry definition
  · rw [eq, accepted, insert, declared_rememberAll]
    rfl
  · rw [eq, rejected, declared_rememberAll]
    rfl

/-- A definition leaves the name of the root as it is. -/
theorem topName_define (registry : Registry) (definition : Definition) :
    (registry.define definition).2.topName = registry.topName := by
  obtain ⟨names, ⟨declaration, -, eq⟩ | ⟨cause, -, eq⟩⟩ := define_cases registry definition
  · rw [eq, insert, topName_rememberAll]
  · rw [eq, topName_rememberAll]

/-- A definition that stands for a new type without any look-up declares just this type. -/
theorem define_eq_of_declarationBy {declaration : Declaration}
    (declares : registry.declarationBy Action.lookup definition = pure declaration)
    (new : registry.declared? declaration.name = none) :
    registry.define definition = (.ok declaration, registry.insert declaration) := by
  have free : registry.contains declaration.name = false := by
    rw [contains, new]
    rfl
  have declared : (pure declaration : Registry.Action Declaration) registry
      = (.ok declaration, registry) := rfl
  rw [define, Action.bind_apply, declares, declared]
  dsimp only
  rw [Action.bind_apply, Action.insert_apply, free]
  rfl

/-- What look-ups preserve and what declaring the type of an accepted definition preserves is
preserved by a definition. -/
theorem define_preserves (definition : Definition)
    (remember : ∀ registry name, P registry → P (registry.remember name))
    (insert : ∀ registry declaration, registry.declaration definition = .ok declaration →
      P registry → P (registry.insert declaration))
    (holds : P registry) : P (registry.define definition).2 := by
  obtain ⟨names, ⟨declaration, accepted, eq⟩ | ⟨cause, rejected, eq⟩⟩ :=
    define_cases registry definition
  · rw [eq]
    exact insert _ _ (by rw [declaration_rememberAll, accepted])
      (rememberAll_preserves remember names holds)
  · rw [eq]
    exact rememberAll_preserves remember names holds

end Define

/-- What is declared stays declared. -/
theorem ReachableFrom.mem_declared {start registry : Registry}
    (reached : ReachableFrom start registry) {declaration : Declaration}
    (mem : declaration ∈ start.declared) : declaration ∈ registry.declared := by
  refine reached.preserves (P := fun registry => declaration ∈ registry.declared) ?_ ?_ mem
  · intro registry definition mem
    rw [declared_define]
    exact List.mem_append_right _ mem
  · intro registry name mem
    rwa [declared_remember]

end Registry

end GenericTypes
