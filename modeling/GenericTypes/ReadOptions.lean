import GenericTypes.Environment
import GenericTypes.Json.Value

/-! # Options for reading descriptors

How deep the brackets of a text may be nested, and whether brackets that are still open at its end
are closed there. Options can be read from JSON and from environment variables. -/

namespace GenericTypes

/-- Numbers in options are below this bound: they fit into 64 bits. -/
def optionBound : Nat :=
  UInt64.size

/-- Options for reading descriptors. -/
structure ReadOptions where
  /-- How many brackets may be open at once. -/
  maxDepth : Nat := 64
  /-- Whether brackets that are open at the end of a text are closed there. -/
  lenient : Bool := false
  deriving DecidableEq, Repr

namespace ReadOptions

/-- The variable that overrides the nesting limit. -/
def maxDepthKey : String :=
  "TYPEDESC_MAX_DEPTH"

/-- The variable that overrides leniency. -/
def lenientKey : String :=
  "TYPEDESC_LENIENT_UNTERMINATED"

/-- The defaults, overridden by the environment variables that have a reading. -/
def ofEnvironment (environment : Environment) : ReadOptions :=
  let defaults : ReadOptions := {}
  { maxDepth := (environment.natural? optionBound maxDepthKey).getD defaults.maxDepth
    lenient := (environment.flag? lenientKey).getD defaults.lenient }

/-- A natural number within the bound of options, written in digits alone. -/
def natural? : Json → Option Nat
  | .number lexeme => (digitsValue? lexeme).filter (· < optionBound)
  | _ => none

/-- Reads options. What is missing keeps its default. -/
def ofJson? (json : Json) : Option ReadOptions := do
  let defaults : ReadOptions := {}
  match ← json.fields? ["max_depth", "lenient_unterminated"] with
  | [maxDepth, lenient] =>
    return {
      maxDepth := ← Json.orDefault natural? defaults.maxDepth maxDepth
      lenient := ← Json.orDefault Json.bool? defaults.lenient lenient }
  | _ => none

end ReadOptions

end GenericTypes
