import GenericTypes.Descriptor.Basic
import GenericTypes.Text.Quoted

/-! # Texts of descriptors

A descriptor is written as the name of its raw type, followed by the arguments between angle
brackets if there are any. The display form uses short names, the canonical form binary names.
Neither shows identity mode or values; the debug forms do. -/

namespace GenericTypes

namespace Descriptor

/-- The text of a descriptor whose raw types are called by `nameOf`. -/
def render (nameOf : RawType → String) (descriptor : Descriptor) : String :=
  if descriptor.arguments.isEmpty then nameOf descriptor.raw
  else
    nameOf descriptor.raw ++ "<"
      ++ ", ".intercalate (descriptor.arguments.map fun argument => argument.render nameOf) ++ ">"
termination_by sizeOf descriptor
decreasing_by exact sizeOf_lt_of_mem_arguments ‹_›

/-- The text in short names. -/
def display (descriptor : Descriptor) : String :=
  descriptor.render RawType.shortName

/-- The text in binary names, which can be read back. -/
def canonical (descriptor : Descriptor) : String :=
  descriptor.render RawType.name

/-- The debug text on one line, given the text of the value at the root. -/
def debugText (payload : String) (descriptor : Descriptor) : String :=
  "TypeDescriptor \x7b raw_type: " ++ quoted descriptor.raw.name
    ++ (if descriptor.arguments.isEmpty then ""
      else ", arguments: ["
        ++ ", ".intercalate (descriptor.arguments.map fun argument => argument.debugText "()")
        ++ "]")
    ++ (if descriptor.identity then ", identity: true" else "")
    ++ ", payload: " ++ payload ++ " \x7d"
termination_by sizeOf descriptor
decreasing_by exact sizeOf_lt_of_mem_arguments ‹_›

/-- A line of a debug text, one level further in. -/
def indent (line : String) : String :=
  "    " ++ line

/-- The lines of a debug text between the outermost braces. -/
def debugFields (payload : String) (descriptor : Descriptor) : List String :=
  ["raw_type: " ++ quoted descriptor.raw.name ++ ","]
    ++ (if descriptor.arguments.isEmpty then []
      else "arguments: ["
        :: (descriptor.arguments.flatMap fun argument =>
          "TypeDescriptor \x7b" :: ((argument.debugFields "()").map indent ++ ["\x7d,"])).map indent
        ++ ["],"])
    ++ (if descriptor.identity then ["identity: true,"] else [])
    ++ ["payload: " ++ payload ++ ","]
termination_by sizeOf descriptor
decreasing_by exact sizeOf_lt_of_mem_arguments ‹_›

/-- The debug text on several lines, given the text of the value at the root. -/
def debugLines (payload : String) (descriptor : Descriptor) : String :=
  "\n".intercalate
    ("TypeDescriptor \x7b" :: ((descriptor.debugFields payload).map indent ++ ["\x7d"]))

end Descriptor

end GenericTypes
