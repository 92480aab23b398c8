/-! # Short names

The short name of a class is what follows the last `.` of its binary name, and of that what follows
the last `$`. It is empty when the binary name ends in either character. -/

namespace GenericTypes

/-- What follows the last occurrence of `mark`, or everything when there is none. -/
def afterLast (mark : Char) (text : List Char) : List Char :=
  (text.reverse.takeWhile (· != mark)).reverse

/-- The short name of the class with the given binary name. -/
def shortName (binaryName : String) : String :=
  String.ofList (afterLast '$' (afterLast '.' binaryName.toList))

end GenericTypes
