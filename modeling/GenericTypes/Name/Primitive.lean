/-! # Primitive types

The nine primitive types, each with its name, the one-letter code that stands for it in the name of
an array type, and the class that wraps it. -/

namespace GenericTypes

/-- The primitive types. -/
inductive Primitive
  | boolean
  | byte
  | char
  | short
  | int
  | long
  | float
  | double
  | void
  deriving DecidableEq, Repr

namespace Primitive

/-- Every primitive type, in the order of the tables. -/
def all : List Primitive :=
  [boolean, byte, char, short, int, long, float, double, void]

/-- The name of a primitive type. -/
def name : Primitive → String
  | boolean => "boolean"
  | byte => "byte"
  | char => "char"
  | short => "short"
  | int => "int"
  | long => "long"
  | float => "float"
  | double => "double"
  | void => "void"

/-- The letter that stands for a primitive type in the name of an array type. -/
def code : Primitive → Char
  | boolean => 'Z'
  | byte => 'B'
  | char => 'C'
  | short => 'S'
  | int => 'I'
  | long => 'J'
  | float => 'F'
  | double => 'D'
  | void => 'V'

/-- The name of the class that wraps a primitive type. -/
def wrapper : Primitive → String
  | boolean => "java.lang.Boolean"
  | byte => "java.lang.Byte"
  | char => "java.lang.Character"
  | short => "java.lang.Short"
  | int => "java.lang.Integer"
  | long => "java.lang.Long"
  | float => "java.lang.Float"
  | double => "java.lang.Double"
  | void => "java.lang.Void"

/-- The primitive type called `name`. -/
def ofName? (name : String) : Option Primitive :=
  all.find? fun p => p.name == name

/-- The primitive type whose letter is `code`. -/
def ofCode? (code : Char) : Option Primitive :=
  all.find? fun p => p.code == code

/-- The primitive type wrapped by the class called `wrapper`. -/
def ofWrapper? (wrapper : String) : Option Primitive :=
  all.find? fun p => p.wrapper == wrapper

/-- Every primitive type is listed. -/
@[simp] theorem mem_all (p : Primitive) : p ∈ all := by
  cases p <;> decide

/-- A primitive type is found by its letter. -/
@[simp] theorem ofCode?_code (p : Primitive) : ofCode? p.code = some p := by
  cases p <;> decide

/-- A primitive type is found by its name. -/
@[simp] theorem ofName?_name (p : Primitive) : ofName? p.name = some p := by
  cases p <;> decide

/-- A letter finds the primitive type that it stands for. -/
theorem code_of_ofCode? {code : Char} {p : Primitive} (found : ofCode? code = some p) :
    p.code = code := by
  simpa using List.find?_some found

end Primitive

end GenericTypes
