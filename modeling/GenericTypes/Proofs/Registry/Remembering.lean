import GenericTypes.Registry.Define
import GenericTypes.Proofs.Registry.Lookup

/-! # Look-ups while a type is defined

A registry defines a type by looking names up, and every look-up may add an array type to those that
are remembered. What names stand for does not change on the way, so the answers that a definition
depends on are those of the registry it started from: `Action.Gives` says this of any part of a
definition, and `Action.gives_declarationBy` of all of it. -/

namespace GenericTypes

namespace Registry

variable {registry : Registry}

/-! ## Several look-ups -/

/-- A registry after names were looked up in order. -/
def rememberAll (registry : Registry) (names : List String) : Registry :=
  names.foldl remember registry

/-- What every look-up preserves is preserved by several. -/
theorem rememberAll_preserves {P : Registry → Prop}
    (remember : ∀ registry name, P registry → P (registry.remember name)) (names : List String)
    (holds : P registry) : P (registry.rememberAll names) := by
  induction names generalizing registry with
  | nil => exact holds
  | cons name names ih => exact ih (remember registry name holds)

/-- Looking names up leaves the declared types as they are. -/
@[simp] theorem declared_rememberAll (registry : Registry) (names : List String) :
    (registry.rememberAll names).declared = registry.declared :=
  rememberAll_preserves (P := fun later => later.declared = registry.declared)
    (fun later name same => (declared_remember later name).trans same) names rfl

/-- Looking names up leaves the name of the root as it is. -/
@[simp] theorem topName_rememberAll (registry : Registry) (names : List String) :
    (registry.rememberAll names).topName = registry.topName :=
  rememberAll_preserves (P := fun later => later.topName = registry.topName)
    (fun later name same => (topName_remember later name).trans same) names rfl

/-- Looking names up changes nothing in what names stand for. -/
@[simp] theorem find_rememberAll (registry : Registry) (names : List String) :
    (registry.rememberAll names).find = registry.find :=
  rememberAll_preserves (P := fun later => later.find = registry.find)
    (fun later name same => (find_remember later name).trans same) names rfl

/-! ## Actions that look names up -/

namespace Action

variable {α β : Type} {find : String → Except RegistryError RawType} {action : Registry.Action α}
  {answer : Except RegistryError α}

/-- An action that follows another starts from what the other has left, unless that was rejected. -/
theorem bind_apply (action : Registry.Action α) (next : α → Registry.Action β)
    (registry : Registry) :
    (action >>= next) registry = match action registry with
      | (.ok value, later) => next value later
      | (.error cause, later) => (.error cause, later) := by
  simp only [Bind.bind, ExceptT.bind, ExceptT.mk, StateT.bind]
  rcases action registry with ⟨_ | _, later⟩ <;> rfl

/-- Declaring a type is rejected exactly if a type is declared under its name. -/
theorem insert_apply (declaration : Declaration) (registry : Registry) :
    Action.insert declaration registry =
      if registry.contains declaration.name then
        (.error (.duplicateType declaration.name), registry)
      else (.ok (), registry.insert declaration) := by
  have current : (get : Registry.Action Registry) registry = (.ok registry, registry) := rfl
  rw [Action.insert, bind_apply, current]
  dsimp only
  split
  · rfl
  · rfl

/-- Whether an action gives an answer in every registry in which names stand for what `find` says,
and changes nothing but what is remembered. -/
def Gives (find : String → Except RegistryError RawType) (action : Registry.Action α)
    (answer : Except RegistryError α) : Prop :=
  ∀ registry : Registry, registry.find = find →
    ∃ names, action registry = (answer, registry.rememberAll names)

/-- A value is given without a look-up. -/
theorem Gives.pure (value : α) : Gives find (Pure.pure value) (.ok value) :=
  fun _ _ => ⟨[], rfl⟩

/-- An error is given without a look-up. -/
theorem Gives.throw (cause : RegistryError) :
    Gives find (MonadExcept.throw cause : Registry.Action α) (.error cause) :=
  fun _ _ => ⟨[], rfl⟩

/-- An error is given before what would follow it. -/
theorem Gives.throw_bind (cause : RegistryError) (next : α → Registry.Action β)
    (rest : α → Except RegistryError β) :
    Gives find (MonadExcept.throw cause >>= next) (.error cause >>= rest) :=
  fun _ _ => ⟨[], rfl⟩

/-- A look-up gives what the name stands for. -/
theorem Gives.lookup (name : String) : Gives find (Action.lookup name) (find name) := by
  rintro registry rfl
  exact ⟨[name], rfl⟩

/-- Actions that follow each other give what their answers give. -/
theorem Gives.bind (first : Gives find action answer) {next : α → Registry.Action β}
    {rest : α → Except RegistryError β} (later : ∀ value, Gives find (next value) (rest value)) :
    Gives find (action >>= next) (answer >>= rest) := by
  intro registry same
  obtain ⟨names, given⟩ := first registry same
  rw [bind_apply, given]
  cases answer with
  | error cause => exact ⟨names, rfl⟩
  | ok value =>
    obtain ⟨others, ended⟩ := later value _ ((find_rememberAll registry names).trans same)
    refine ⟨names ++ others, ended.trans ?_⟩
    rw [rememberAll, rememberAll, rememberAll, List.foldl_append]
    rfl

/-- Actions for the members of a list give the answers for the members. -/
theorem Gives.mapM {next : α → Registry.Action β} {rest : α → Except RegistryError β}
    {inputs : List α} (each : ∀ input ∈ inputs, Gives find (next input) (rest input)) :
    Gives find (inputs.mapM next) (inputs.mapM rest) := by
  induction inputs with
  | nil =>
    rw [List.mapM_nil, List.mapM_nil]
    exact .pure []
  | cons input inputs ih =>
    rw [List.forall_mem_cons] at each
    rw [List.mapM_cons, List.mapM_cons]
    exact each.1.bind fun first => (ih each.2).bind fun others => .pure (first :: others)

end Action

end Registry

/-! ## What a definition declares -/

namespace Registry

namespace Action

variable {find : String → Except RegistryError RawType} {definition : Definition}

/-- Resolving a bare name gives what it stands for. -/
theorem gives_resolveName (name : String) :
    Gives find (definition.resolveName Action.lookup name) (definition.resolveName find name) := by
  unfold Definition.resolveName
  split
  · exact .pure _
  · split
    · exact .pure _
    · exact (Gives.lookup name).bind fun raw => .pure _

/-- Resolving a signature gives what it stands for. -/
theorem gives_resolve (signature : Signature) :
    Gives find (signature.resolve Action.lookup definition)
      (signature.resolve find definition) := by
  induction signature using Signature.inductionOnArguments with
  | malformed text =>
    rw [Signature.resolve, Signature.resolve]
    exact .throw _
  | applied base arguments ih =>
    rw [Signature.resolve_applied, Signature.resolve_applied]
    split
    · exact gives_resolveName base
    · refine (Gives.lookup base).bind fun raw => ?_
      split
      · exact .throw_bind _ _ _
      · exact (Gives.mapM ih).bind fun uses => .pure _

/-- Reading a supertype gives what its signature stands for. -/
theorem gives_supertype (isWanted : Declaration → Bool) (fault : String → DefinitionFault)
    (signature : String) :
    Gives find (supertype Action.lookup definition isWanted fault signature)
      (supertype find definition isWanted fault signature) := by
  refine (gives_resolve _).bind fun use => ?_
  split
  · exact .pure _
  · exact .throw _

/-- Reading the superclass gives what its signature stands for, or the root. -/
theorem gives_superclass (registry : Registry) :
    Gives find (registry.superclass Action.lookup definition)
      (registry.superclass find definition) := by
  unfold superclass
  cases definition.superclass with
  | none => exact .pure _
  | some signature => exact gives_supertype _ _ signature

/-- Reading the interfaces gives what their signatures stand for. -/
theorem gives_interfaces :
    Gives find (interfaces Action.lookup definition) (interfaces find definition) :=
  .mapM fun signature _ => gives_supertype _ _ signature

/-- Checking a definition gives the type that it declares. -/
theorem gives_declarationBy (registry : Registry) (definition : Definition) :
    Gives find (registry.declarationBy Action.lookup definition)
      (registry.declarationBy find definition) := by
  unfold declarationBy
  cases definition.fault? with
  | some fault => exact .throw_bind _ _ _
  | none =>
    dsimp only
    split
    · exact .throw_bind _ _ _
    · split
      · split
        · exact .throw_bind _ _ _
        · exact gives_interfaces.bind fun interfaces => .pure _
      · exact (gives_superclass registry).bind fun superclass =>
          gives_interfaces.bind fun interfaces => .pure _

end Action

end Registry

end GenericTypes
