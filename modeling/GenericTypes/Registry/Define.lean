import GenericTypes.Registry.Basic
import GenericTypes.Registry.Definition
import GenericTypes.Signature
import GenericTypes.Text.Quoted
import GenericTypes.TypeUse

/-! # Defining types

A definition is accepted when its names are in order, its name is new, and its supertypes are known
types of the right kind. Supertypes have to be declared before a type that names them, so the
hierarchy of a registry has no cycles; only inside the arguments of a supertype may a type refer to
itself.

What a definition declares depends on what names stand for, so the checks are given a way to look
names up: `Registry.find` only says what a name stands for, and `Registry.Action.lookup` remembers
array types as well. The registry defines types in the second way, and what it has remembered stays
even when the definition is rejected. -/

namespace GenericTypes

section Checks

variable {m : Type → Type} [Monad m] [MonadExcept RegistryError m]

/-- What a bare name in a definition stands for: a type parameter of the definition, the defined
type itself, or a known type, in this order. -/
def Definition.resolveName (definition : Definition) (find : String → m RawType) (name : String) :
    m TypeUse :=
  if definition.parameters.contains name then return .parameter name []
  else if name == definition.name then return .named name
  else return .plain (← find name)

/-- What a signature in a definition stands for. The checks run from left to right, the base name
before its arguments. -/
def Signature.resolve (find : String → m RawType) (definition : Definition) :
    Signature → m TypeUse
  | .malformed text => throw (.invalidDefinition definition.name (.malformedSignature text))
  | .applied base arguments =>
    if arguments.isEmpty then definition.resolveName find base
    else do
      let raw ← find base
      if raw.parameters.length != arguments.length then
        throw (.invalidDefinition definition.name
          (.wrongArity raw.name raw.parameters.length arguments.length))
      let uses ← arguments.attach.mapM fun argument =>
        have := argument.2
        argument.1.resolve find definition
      return .parameterized raw uses

/-- A signature with arguments is resolved by its base name and then by its arguments in order. -/
theorem Signature.resolve_applied [LawfulMonad m] (find : String → m RawType)
    (definition : Definition) (base : String) (arguments : List Signature) :
    (applied base arguments).resolve find definition =
      if arguments.isEmpty then definition.resolveName find base
      else do
        let raw ← find base
        if raw.parameters.length != arguments.length then
          throw (.invalidDefinition definition.name
            (.wrongArity raw.name raw.parameters.length arguments.length))
        return .parameterized raw (← arguments.mapM (resolve find definition)) := by
  have all : (arguments.attach.mapM fun argument => argument.1.resolve find definition)
      = arguments.mapM (resolve find definition) := by
    rw [List.mapM_subtype (fun _ _ => rfl), List.unattach_attach]
  rw [resolve]
  simp only [all]

namespace Registry

/-- The supertype that a signature in a definition stands for, if it has the kind that is wanted. -/
def supertype (find : String → m RawType) (definition : Definition)
    (isWanted : Declaration → Bool) (fault : String → DefinitionFault) (signature : String) :
    m Supertype := do
  let use ← (Signature.ofText signature).resolve find definition
  match (Supertype.ofUse? use).filter (isWanted ·.declaration) with
  | some supertype => return supertype
  | none => throw (.invalidDefinition definition.name (fault use.text))

/-- The superclass of a class that is defined. -/
def superclass (registry : Registry) (find : String → m RawType) (definition : Definition) :
    m Supertype :=
  match definition.superclass with
  | none => return ⟨.top registry.topName, []⟩
  | some signature => supertype find definition Declaration.isClass .notClass signature

/-- The interfaces of a type that is defined. -/
def interfaces (find : String → m RawType) (definition : Definition) : m (List Supertype) :=
  definition.interfaces.mapM (supertype find definition Declaration.isInterface .notInterface)

/-- The type that a definition declares, names being looked up in a given way. -/
def declarationBy (registry : Registry) (find : String → m RawType) (definition : Definition) :
    m Declaration := do
  if let some fault := definition.fault? then
    throw (.invalidDefinition definition.name fault)
  if registry.contains definition.name then
    throw (.duplicateType definition.name)
  if definition.isInterface then
    if definition.superclass.isSome then
      throw (.invalidDefinition definition.name .interfaceSuperclass)
    return .interface definition.name definition.parameters (← interfaces find definition)
  else
    let superclass ← registry.superclass find definition
    return .ordinary definition.name definition.parameters superclass
      (← interfaces find definition)

end Registry

end Checks

namespace Registry

/-- The type that a definition declares, going by what names stand for. -/
def declaration (registry : Registry) (definition : Definition) :
    Except RegistryError Declaration :=
  registry.declarationBy registry.find definition

/-- A registry with one more declared type. -/
def insert (registry : Registry) (declaration : Declaration) : Registry :=
  { registry with declared := declaration :: registry.declared }

/-- A computation that works on a registry and may be rejected. What it has changed in the registry
by then stays changed. -/
abbrev Action (α : Type) := ExceptT RegistryError (StateM Registry) α

namespace Action

/-- Looks a name up. -/
def lookup (name : String) : Action RawType :=
  fun registry => registry.lookup name

/-- Declares a type, unless one is declared under its name already. -/
def insert (declaration : Declaration) : Action Unit := do
  if (← get).contains declaration.name then
    throw (.duplicateType declaration.name)
  modify (·.insert declaration)

end Action

/-- Defines a type. The names in the definition are looked up, so the registry may remember array
types even if the definition is rejected. -/
def define (registry : Registry) (definition : Definition) :
    Except RegistryError Declaration × Registry :=
  let action : Action Declaration := do
    let declaration ← registry.declarationBy Action.lookup definition
    Action.insert declaration
    return declaration
  action registry

/-- Defines types in order, up to the first definition that is rejected. -/
def defineAll (registry : Registry) : List Definition → Except LoadError Unit × Registry
  | [] => (.ok (), registry)
  | definition :: rest =>
    match registry.define definition with
    | (.ok _, registry) => registry.defineAll rest
    | (.error cause, registry) => (.error (.rejected definition.name cause), registry)

/-- Defines the types in a JSON array of definitions and counts them. The text is read completely
before anything is defined. -/
def loadJson (registry : Registry) (text : String) : Except LoadError Nat × Registry :=
  match (Json.ofText? text).bind Definition.listOfJson? with
  | none => (.error .unparsable, registry)
  | some definitions =>
    let (result, registry) := registry.defineAll definitions
    (result.map fun _ => definitions.length, registry)

/-- Like `loadJson` for the content of a file, which is missing when the file could not be read. -/
def loadFile (registry : Registry) (content : Option String) : Except LoadError Nat × Registry :=
  match content with
  | none => (.error .unreadable, registry)
  | some text => registry.loadJson text

/-- The debug text of a registry. -/
def debugText (registry : Registry) : String :=
  "TypeRegistry \x7b top: TypeHandle(" ++ quoted registry.topName ++ "), types: "
    ++ toString registry.size ++ " \x7d"

end Registry

end GenericTypes
