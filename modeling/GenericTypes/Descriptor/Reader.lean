import GenericTypes.Descriptor.Draft
import GenericTypes.ReadOptions
import GenericTypes.Registry.Basic
import GenericTypes.Text.Blank

/-! # Reading descriptors

Reading of canonical text, which may hold several descriptors separated by commas. Blanks are
allowed around the whole text, and one blank after each comma. The text is scanned once, character
by character. Descriptors whose brackets are open are kept as drafts on a stack; a closing bracket
adds the innermost draft to the one around it, or finishes a descriptor when there is none. -/

namespace GenericTypes

/-- What a scan has read last. -/
inductive Scan.Phase
  /-- Nothing since the start of the text, an opening bracket, or a comma with its blank. -/
  | fresh
  /-- The characters of a name, the last one first. -/
  | name (reversed : List Char)
  /-- A closing bracket. -/
  | closed
  /-- A comma. -/
  | separated
  deriving DecidableEq, Repr

/-- The state of a scan. -/
structure Scan where
  /-- The drafts whose brackets are open, the innermost first. -/
  unclosed : List Draft := []
  /-- The finished descriptors, the last one first. -/
  finished : List Descriptor := []
  /-- What has been read last. -/
  phase : Scan.Phase := .fresh

/-- What a scan needs to know: where names are looked up, the options, and the address of the list
that is read. -/
structure Scan.Context where
  /-- Where names are looked up. -/
  scope : Scope
  /-- The options. -/
  options : ReadOptions
  /-- The address of the list that is read. -/
  here : Address

namespace Scan

/-- The raw type that a name stands for, given its characters in reverse. -/
def resolve (context : Context) (reversed : List Char) : Except DescriptorError RawType :=
  (context.scope.find (String.ofList reversed.reverse)).mapError DescriptorError.ofRegistry

/-- The address of the next descriptor that is finished. -/
def next (context : Context) (scan : Scan) : Address :=
  context.here.child scan.finished.length

/-- Adds a name without arguments to the innermost draft, or finishes it as a descriptor. -/
def addName (context : Context) (scan : Scan) (reversed : List Char) :
    Except DescriptorError Scan := do
  let raw ← resolve context reversed
  match scan.unclosed with
  | [] => return { scan with finished := .leaf (scan.next context) raw :: scan.finished }
  | innermost :: outer => return { scan with unclosed := innermost.add (.raw raw) :: outer }

/-- Opens the brackets after a name. -/
def openBracket (context : Context) (position : Nat) (scan : Scan) (reversed : List Char) :
    Except DescriptorError Scan := do
  if context.options.maxDepth ≤ scan.unclosed.length then
    throw (.malformed position (.tooDeep context.options.maxDepth))
  let raw ← resolve context reversed
  return { scan with unclosed := .ofRaw raw :: scan.unclosed, phase := .fresh }

/-- Closes the innermost brackets. -/
def closeBracket (context : Context) (position : Nat) (scan : Scan) :
    Except DescriptorError Scan :=
  match scan.unclosed with
  | [] => .error (.malformed position .unbalancedClose)
  | [draft] => do
    let descriptor ← draft.build (scan.next context)
    return { unclosed := [], finished := descriptor :: scan.finished, phase := .closed }
  | draft :: parent :: outer =>
    .ok { scan with unclosed := parent.add (.draft draft) :: outer, phase := .closed }

/-- Adds the name that ends here, if one does. Nothing else than a name or a closing bracket may
stand in front of what ends an argument. -/
def endArgument (context : Context) (position : Nat) (scan : Scan) : Except DescriptorError Scan :=
  match scan.phase with
  | .name reversed => scan.addName context reversed
  | .closed => .ok scan
  | _ => .error (.malformed position .emptyArgument)

/-- Reads one character at a byte offset. -/
def step (context : Context) (position : Nat) (scan : Scan) (c : Char) :
    Except DescriptorError Scan :=
  if c = '<' then
    match scan.phase with
    | .name reversed => scan.openBracket context position reversed
    | _ => .error (.malformed position .missingName)
  else if c = ',' then do
    let scan ← scan.endArgument context position
    return { scan with phase := .separated }
  else if c = '>' then
    if scan.unclosed.isEmpty then .error (.malformed position .unbalancedClose)
    else do
      let scan ← scan.endArgument context position
      scan.closeBracket context position
  else if isBlank c then
    match scan.phase with
    | .separated => .ok { scan with phase := .fresh }
    | _ => .error (.malformed position .unexpectedBlank)
  else
    match scan.phase with
    | .closed => .error (.malformed position .nameAfterClose)
    | .name reversed => .ok { scan with phase := .name (c :: reversed) }
    | _ => .ok { scan with phase := .name [c] }

/-- Reads a text that starts at a byte offset. -/
def run (context : Context) (position : Nat) (scan : Scan) : List Char → Except DescriptorError Scan
  | [] => .ok scan
  | c :: rest => do
    let scan ← scan.step context position c
    scan.run context (position + c.utf8Size) rest

/-- Adds each draft of a stack to the one around it, and gives the outermost one. -/
def nest (draft : Draft) : List Draft → Draft
  | [] => draft
  | parent :: outer => nest (parent.add (.draft draft)) outer

/-- Closes all brackets that are still open. -/
def closeAll (context : Context) (scan : Scan) : Except DescriptorError Scan :=
  match scan.unclosed with
  | [] => .ok scan
  | innermost :: outer => do
    let descriptor ← (nest innermost outer).build (scan.next context)
    return { scan with unclosed := [], finished := descriptor :: scan.finished }

/-- Ends a text at a byte offset. A name that is still pending is a descriptor of its own, even when
brackets had to be closed. -/
def finish (context : Context) (position : Nat) (scan : Scan) :
    Except DescriptorError (List Descriptor) := do
  if scan.phase = .separated then
    throw (.malformed (position - 1) .trailingComma)
  if !scan.unclosed.isEmpty && !context.options.lenient then
    throw (.malformed position (.unterminated scan.unclosed.length))
  let scan ← scan.closeAll context
  match scan.phase with
  | .name reversed => return (← scan.addName context reversed).finished.reverse
  | _ => return scan.finished.reverse

/-- Reads a trimmed text that starts at a byte offset. -/
def readBody (context : Context) (start : Nat) (body : List Char) :
    Except DescriptorError (List Descriptor) := do
  let scan ← run context start {} body
  scan.finish context (start + byteLength body)

end Scan

namespace Descriptor

/-- Reads all descriptors in a text, in order. A blank text holds none. -/
def readAll (scope : Scope) (options : ReadOptions) (here : Address) (text : String) :
    Except DescriptorError (List Descriptor) :=
  Scan.readBody ⟨scope, options, here⟩
    (byteLength text.toList - byteLength (trimStart text.toList)) (trim text.toList)

/-- Reads a text that holds exactly one descriptor. -/
def readOne (scope : Scope) (options : ReadOptions) (here : Address) (text : String) :
    Except DescriptorError Descriptor := do
  match ← readAll scope options here text with
  | [descriptor] => return descriptor
  | descriptors => throw (.malformed (byteLength text.toList) (.notSingle descriptors.length))

end Descriptor

end GenericTypes
