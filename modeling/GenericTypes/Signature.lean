import GenericTypes.Text.Blank

/-! # Signatures

A signature is the text of a type in a declaration, such as `java.util.Map<K, java.util.List<V>>`: a
base name and, between angle brackets, arguments that are signatures again. `Signature.cut?` takes
one layer apart and `Signature.ofChars` all of them. Names are not looked up here, so that a
signature can be read before anything is known about the names in it. -/

namespace GenericTypes

/-- A signature taken apart at every layer. -/
inductive Signature
  /-- A text that is no signature. -/
  | malformed (text : String)
  /-- A base name with its arguments. -/
  | applied (base : String) (arguments : List Signature)

namespace Signature

/-- What holds of every text that is no signature, and of a base name with arguments whenever it
holds of the arguments, holds of every signature. -/
@[elab_as_elim]
theorem inductionOnArguments {motive : Signature → Prop}
    (malformed : ∀ text, motive (.malformed text))
    (applied : ∀ base arguments, (∀ argument ∈ arguments, motive argument) →
      motive (.applied base arguments))
    (signature : Signature) : motive signature :=
  match signature with
  | .malformed text => malformed text
  | .applied base arguments =>
    applied base arguments fun argument _ => inductionOnArguments malformed applied argument

/-- How many brackets are open after a character, when `depth` were open before it. A closing
bracket with nothing open leaves nothing open. -/
def depthAfter (depth : Nat) (c : Char) : Nat :=
  if c = '<' then depth + 1 else if c = '>' then depth - 1 else depth

/-- Whether the brackets of a text match, when `depth` brackets are open before it. -/
def balancedFrom (depth : Nat) : List Char → Bool
  | [] => depth == 0
  | c :: rest => if c = '>' ∧ depth = 0 then false else balancedFrom (depthAfter depth c) rest

/-- Whether every bracket of a text is closed and none is closed before it is opened. -/
def balanced (text : List Char) : Bool :=
  balancedFrom 0 text

/-- Puts a character in front of the first piece. -/
def prependToFirst (c : Char) : List (List Char) → List (List Char)
  | [] => [[c]]
  | piece :: pieces => (c :: piece) :: pieces

/-- The pieces of a text between the commas outside all brackets, when `depth` brackets are open
before it. -/
def piecesFrom (depth : Nat) : List Char → List (List Char)
  | [] => [[]]
  | c :: rest =>
    if c = ',' ∧ depth = 0 then [] :: piecesFrom 0 rest
    else prependToFirst c (piecesFrom (depthAfter depth c) rest)

/-- The trimmed pieces of an argument list. There is always at least one. -/
def cutArguments (text : List Char) : List (List Char) :=
  (piecesFrom 0 text).map trim

/-- Reads a trimmed signature without an opening bracket: it is a base name alone. -/
def cutPlain? (name : List Char) : Option (List Char × List (List Char)) :=
  if name.isEmpty || name.any (fun c => c == '>' || c == ',') then none else some (name, [])

/-- Reads a trimmed signature with an opening bracket, given what stands on either side of the first
one. The bracket that closes it has to end the signature. -/
def cutApplied? (before after : List Char) : Option (List Char × List (List Char)) :=
  if after.getLast? == some '>' && !(trim before).isEmpty && !(trim after.dropLast).isEmpty
      && balanced after.dropLast && (cutArguments after.dropLast).all (!·.isEmpty) then
    some (trim before, cutArguments after.dropLast)
  else none

/-- Takes one layer of a signature apart, into the base name and the texts of the arguments. There
is no result when a name or an argument is missing, when brackets do not match, or when text follows
the closing bracket. -/
def cut? (text : List Char) : Option (List Char × List (List Char)) :=
  match (trim text).dropWhile (· != '<') with
  | [] => cutPlain? (trim text)
  | _ :: after => cutApplied? ((trim text).takeWhile (· != '<')) after

/-- Putting a character in front of the first piece lengthens no piece by more than one. -/
theorem length_le_of_mem_prependToFirst {c : Char} {pieces : List (List Char)} {piece : List Char}
    {bound : Nat} (short : ∀ p ∈ pieces, p.length ≤ bound)
    (mem : piece ∈ prependToFirst c pieces) : piece.length ≤ bound + 1 := by
  cases pieces with
  | nil => simp_all [prependToFirst]
  | cons first others =>
    simp only [prependToFirst, List.mem_cons] at mem
    rcases mem with rfl | mem
    · simpa using short first (by simp)
    · exact Nat.le_succ_of_le (short piece (by simp [mem]))

/-- No piece is longer than the text. -/
theorem length_le_of_mem_piecesFrom {depth : Nat} {text piece : List Char}
    (mem : piece ∈ piecesFrom depth text) : piece.length ≤ text.length := by
  induction text generalizing depth piece with
  | nil => simp_all [piecesFrom]
  | cons c rest ih =>
    rw [piecesFrom] at mem
    split at mem
    · rcases List.mem_cons.1 mem with rfl | mem
      · simp
      · exact Nat.le_succ_of_le (ih mem)
    · exact length_le_of_mem_prependToFirst (fun p hp => ih hp) mem

/-- The arguments of a signature are shorter than the signature. -/
theorem length_lt_of_mem_cut? {text base argument : List Char} {arguments : List (List Char)}
    (cut : cut? text = some (base, arguments)) (mem : argument ∈ arguments) :
    argument.length < text.length := by
  have shrink := length_trim_le text
  have suffix := (List.dropWhile_suffix (l := trim text) (· != '<')).length_le
  unfold cut? at cut
  split at cut
  · unfold cutPlain? at cut
    split at cut <;> simp_all
  · rename_i after eq
    unfold cutApplied? at cut
    split at cut
    · simp only [Option.some.injEq, Prod.mk.injEq] at cut
      rw [← cut.2, cutArguments, List.mem_map] at mem
      obtain ⟨piece, mem, rfl⟩ := mem
      have := length_trim_le piece
      have := length_le_of_mem_piecesFrom mem
      rw [eq] at suffix
      simp only [List.length_cons, List.length_dropLast] at *
      omega
    · simp at cut

/-- Takes a signature apart at every layer. -/
def ofChars (text : List Char) : Signature :=
  match cut : cut? text with
  | none => malformed (String.ofList text)
  | some (base, arguments) =>
    applied (String.ofList base)
      (arguments.attach.map fun argument =>
        have := length_lt_of_mem_cut? cut argument.2
        ofChars argument.1)
termination_by text.length

/-- Takes the text of a signature apart at every layer. -/
def ofText (text : String) : Signature :=
  ofChars text.toList

/-- Takes one layer of the text of a signature apart. -/
def split? (text : String) : Option (String × List String) :=
  (cut? text.toList).map fun (base, arguments) =>
    (String.ofList base, arguments.map String.ofList)

/-- A text of which one layer is taken apart is a base name with the signatures of the arguments. -/
theorem ofChars_of_cut? {text base : List Char} {arguments : List (List Char)}
    (cut : cut? text = some (base, arguments)) :
    ofChars text = applied (String.ofList base) (arguments.map ofChars) := by
  rw [ofChars]
  split
  · rename_i none
    cases cut.symm.trans none
  · rename_i other others found
    cases cut.symm.trans found
    rw [List.map_attach_eq_pmap, List.pmap_eq_map]

/-- The text of a signature of which one layer is taken apart is the text of a base name with
arguments. -/
theorem ofText_of_split? {text base : String} {arguments : List String}
    (split : split? text = some (base, arguments)) :
    ofText text = applied base (arguments.map ofText) := by
  obtain ⟨⟨name, pieces⟩, cut, same⟩ := Option.map_eq_some_iff.1 split
  cases same
  rw [ofText, ofChars_of_cut? cut, List.map_map]
  refine congrArg (applied _) (List.map_congr_left fun piece _ => ?_)
  rw [Function.comp_apply, ofText, String.toList_ofList]

/-- The trimmed pieces of the text of an argument list. -/
def splitArguments (text : String) : List String :=
  (cutArguments text.toList).map String.ofList

end Signature

end GenericTypes
