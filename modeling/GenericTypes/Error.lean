/-! # Errors

Why a registry rejects a definition or a name, and why a descriptor cannot be built, read or
converted. Each error is a cause; its wording is given once, by `message`. -/

namespace GenericTypes

/-- What is wrong with a definition. -/
inductive DefinitionFault
  /-- The name is empty. -/
  | emptyName
  /-- The name cannot be the binary name of a class. -/
  | illegalName
  /-- A type parameter is empty or repeats an earlier one. -/
  | illegalParameter (parameter : String)
  /-- An interface names a superclass. -/
  | interfaceSuperclass
  /-- A supertype is no signature. -/
  | malformedSignature (text : String)
  /-- A type is given another number of arguments than it has parameters. -/
  | wrongArity (raw : String) (expected actual : Nat)
  /-- A superclass is no class. -/
  | notClass (supertype : String)
  /-- An interface that is named as such is none. -/
  | notInterface (supertype : String)
  deriving DecidableEq, Repr

/-- The wording of a fault. -/
def DefinitionFault.message : DefinitionFault → String
  | emptyName => "empty name"
  | illegalName => "not a class binary name"
  | illegalParameter parameter => "bad type parameter `" ++ parameter ++ "`"
  | interfaceSuperclass => "interfaces cannot declare a superclass"
  | malformedSignature text => "malformed signature `" ++ text ++ "`"
  | wrongArity raw expected actual =>
    raw ++ " expects " ++ toString expected ++ " type arguments, got " ++ toString actual
  | notClass supertype => "supertype " ++ supertype ++ " is not a class"
  | notInterface supertype => "supertype " ++ supertype ++ " is not an interface"

/-- Why a registry rejects a name or a definition. -/
inductive RegistryError
  /-- No type is known under a name. -/
  | typeNotFound (name : String)
  /-- A type is already declared under a name. -/
  | duplicateType (name : String)
  /-- The definition of a name is at fault. -/
  | invalidDefinition (name : String) (fault : DefinitionFault)
  deriving DecidableEq, Repr

/-- The wording of a registry error. -/
def RegistryError.message : RegistryError → String
  | typeNotFound name => "type not found: " ++ name
  | duplicateType name => "type already registered: " ++ name
  | invalidDefinition name fault => "invalid definition of " ++ name ++ ": " ++ fault.message

/-- Why a text of definitions could not be loaded. -/
inductive LoadError
  /-- The text could not be read at all. -/
  | unreadable
  /-- The text is no list of definitions. -/
  | unparsable
  /-- The definition of a name was rejected. -/
  | rejected (name : String) (cause : RegistryError)
  deriving DecidableEq, Repr

/-- The wording of a load error, without its cause. -/
def LoadError.message : LoadError → String
  | unreadable => "Failed to read"
  | unparsable => "Failed to parse type definitions"
  | rejected name _ => "Failed to define " ++ name

/-- What is wrong with a text of descriptors. -/
inductive TextFault
  /-- An opening bracket follows no name. -/
  | missingName
  /-- A comma or a closing bracket follows no argument. -/
  | emptyArgument
  /-- A closing bracket closes nothing. -/
  | unbalancedClose
  /-- A blank stands where none may. -/
  | unexpectedBlank
  /-- A name follows a closing bracket. -/
  | nameAfterClose
  /-- The text ends in a comma. -/
  | trailingComma
  /-- The text ends while brackets are open. -/
  | unterminated (unclosed : Nat)
  /-- More brackets are open than the limit allows. -/
  | tooDeep (limit : Nat)
  /-- The text holds another number of descriptors than one. -/
  | notSingle (found : Nat)
  deriving DecidableEq, Repr

/-- The wording of a fault in a text. -/
def TextFault.message : TextFault → String
  | missingName => "`<` without a type name"
  | emptyArgument => "empty type argument"
  | unbalancedClose => "unbalanced `>`"
  | unexpectedBlank => "unexpected whitespace"
  | nameAfterClose => "type name directly after `>`"
  | trailingComma => "trailing `,`"
  | unterminated unclosed => "unterminated `<` (" ++ toString unclosed ++ " still open)"
  | tooDeep limit => "nesting deeper than " ++ toString limit ++ " levels"
  | notSingle found => "expected exactly one descriptor, found " ++ toString found

/-- Why a descriptor could not be built, read or converted. -/
inductive DescriptorError
  /-- A draft without a raw type was built. -/
  | incomplete
  /-- A further argument was added to a draft that has none. The raw type of the draft is given if
  it has one. -/
  | sequence (raw : Option String)
  /-- A text is malformed at a byte offset. -/
  | malformed (position : Nat) (fault : TextFault)
  /-- A name stands for no type. -/
  | typeNotFound (name : String)
  /-- The registry rejected something else than a name. -/
  | registry (error : RegistryError)
  deriving DecidableEq, Repr

/-- The wording of a descriptor error. -/
def DescriptorError.message : DescriptorError → String
  | incomplete => "IncompleteDescriptor: builder has no raw type"
  | sequence raw =>
    "BuilderSequenceError: `and` used before any argument was added"
      ++ match raw with
        | some raw => " (building " ++ raw ++ ")"
        | none => ""
  | malformed position fault =>
    "MalformedDescriptorText at offset " ++ toString position ++ ": " ++ fault.message
  | typeNotFound name => "TypeNotFound: " ++ name
  | registry error => "registry error: " ++ error.message

/-- A registry error as a descriptor error. A missing type stays one. -/
def DescriptorError.ofRegistry : RegistryError → DescriptorError
  | .typeNotFound name => typeNotFound name
  | error => registry error

end GenericTypes
