import GenericTypes.Error
import GenericTypes.Json.Value
import GenericTypes.Text.Blank

/-! # Definitions

What a registry is asked to declare: a class or an interface, with its supertypes as signatures. A
definition can be checked by itself for the form of its names, and it can be read from JSON. -/

namespace GenericTypes

/-- The definition of a class or an interface. -/
structure Definition where
  /-- The binary name of the type. -/
  name : String
  /-- Whether an interface is defined. -/
  isInterface : Bool := false
  /-- The names of the type parameters, in order. -/
  parameters : List String := []
  /-- The signature of the superclass. A class without one extends the root. -/
  superclass : Option String := none
  /-- The signatures of the interfaces. -/
  interfaces : List String := []
  deriving DecidableEq, Repr

namespace Definition

/-- Whether a character may not occur in the binary name of a class. -/
def isReserved (c : Char) : Bool :=
  c == '<' || c == '>' || c == ',' || c == ';' || isBlank c

/-- Whether a text that is not empty can be the binary name of a class. -/
def isLegalName (name : String) : Bool :=
  name.toList.head? != some '[' && !name.toList.any isReserved

/-- The first of some type parameters that is empty or repeats one in `earlier`. -/
def illegalParameter? (earlier : List String) : List String → Option String
  | [] => none
  | parameter :: rest =>
    if parameter.isEmpty || earlier.contains parameter then some parameter
    else illegalParameter? (parameter :: earlier) rest

/-- What is wrong with the names in a definition, if anything is. -/
def fault? (definition : Definition) : Option DefinitionFault :=
  if definition.name.isEmpty then some .emptyName
  else if !isLegalName definition.name then some .illegalName
  else (illegalParameter? [] definition.parameters).map .illegalParameter

/-- Reads a definition. Only the name has to be given, and only the superclass may be `null`. -/
def ofJson? (json : Json) : Option Definition := do
  match ← json.fields? ["name", "interface", "type_parameters", "superclass", "interfaces"] with
  | [some name, isInterface, parameters, superclass, interfaces] =>
    return {
      name := ← name.string?
      isInterface := ← Json.orDefault Json.bool? false isInterface
      parameters := ← Json.orDefault Json.strings? [] parameters
      superclass := ← Json.orDefault Json.nullableString? none superclass
      interfaces := ← Json.orDefault Json.strings? [] interfaces }
  | _ => none

/-- Reads an array of definitions. -/
def listOfJson? : Json → Option (List Definition)
  | .array items => items.mapM ofJson?
  | _ => none

end Definition

end GenericTypes
