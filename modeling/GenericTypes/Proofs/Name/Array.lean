import Mathlib.Data.List.Basic
import Mathlib.Data.List.TakeWhile
import GenericTypes.Name.Array

/-! # Reading and writing array names

An array name is cut after its leading brackets. What is left starts with `L` or is the letter of a
primitive type, so it never starts with a bracket itself, and the number of dimensions is the number
of leading brackets. From this follow both directions of the round trip and that array names tell
arrays apart. -/

namespace GenericTypes

namespace ArrayElement

/-- The elements whose arrays have readable names: the primitive types other than `void`, and the
names that hold neither `[` nor `;`. -/
def IsReadable : ArrayElement → Prop
  | primitive code => ∃ type : Primitive, type.code = code ∧ type ≠ .void
  | reference name => name ≠ "" ∧ '[' ∉ name.toList ∧ ';' ∉ name.toList

/-- The elements that do not start with a bracket: all but one that no type has. -/
def IsPlain (element : ArrayElement) : Prop :=
  element ≠ primitive '['

/-- The letter of a primitive type is no bracket and not the letter in front of a reference. -/
theorem code_ne (type : Primitive) : type.code ≠ '[' ∧ type.code ≠ 'L' := by
  cases type <;> decide

/-- The letter of a type other than `void` is not `V`. -/
theorem code_ne_of_ne_void {type : Primitive} (notVoid : type ≠ .void) : type.code ≠ 'V' := by
  cases type <;> first | decide | exact absurd rfl notVoid

/-- A readable element does not start with a bracket. -/
theorem IsReadable.isPlain {element : ArrayElement} (readable : element.IsReadable) :
    element.IsPlain := by
  rintro rfl
  obtain ⟨type, code, -⟩ := readable
  exact (code_ne type).1 code

/-- A plain element is written without a leading bracket. -/
theorem head?_chars {element : ArrayElement} (plain : element.IsPlain) :
    ∀ c ∈ element.chars.head?, (c == '[') = false := by
  intro c first
  cases element with
  | primitive code =>
    have eq : code = c := by simpa [chars] using first
    subst eq
    rw [beq_eq_false_iff_ne]
    rintro rfl
    exact plain rfl
  | reference name =>
    have eq : 'L' = c := by simpa [chars] using first
    subst eq
    decide

/-- Different elements are written differently. -/
theorem chars_injective {left right : ArrayElement} (same : left.chars = right.chars) :
    left = right := by
  cases left with
  | primitive code =>
    cases right with
    | primitive other =>
      simp only [chars, List.cons.injEq, and_true] at same
      rw [same]
    | reference name =>
      have lengths := congrArg List.length same
      simp [chars] at lengths
  | reference name =>
    cases right with
    | primitive other =>
      have lengths := congrArg List.length same
      simp [chars] at lengths
    | reference other =>
      simp only [chars, List.cons.injEq, true_and, List.append_cancel_right_eq] at same
      rw [String.toList_inj.1 same]

/-- A readable element is read back from what it is written as. -/
theorem ofChars?_chars {element : ArrayElement} (readable : element.IsReadable) :
    ofChars? element.chars = some element := by
  cases element with
  | primitive code =>
    obtain ⟨type, rfl, notVoid⟩ := readable
    have letter := (code_ne type).2
    have visible := code_ne_of_ne_void notVoid
    rw [chars, ofChars?]
    · simp [visible]
    · exact letter
  | reference name =>
    obtain ⟨nonempty, noBracket, noSemicolon⟩ := readable
    have legal : (name.toList.any fun c => c == '[' || c == ';') = false := by
      rw [List.any_eq_false]
      intro c mem
      have bracket : c ≠ '[' := fun eq => noBracket (eq ▸ mem)
      have semicolon : c ≠ ';' := fun eq => noSemicolon (eq ▸ mem)
      simp [bracket, semicolon]
    simp [chars, ofChars?, legal, nonempty]

/-- What is read as an element is readable and written in the same way. -/
theorem chars_of_ofChars? {text : List Char} {element : ArrayElement}
    (read : ofChars? text = some element) : element.chars = text ∧ element.IsReadable := by
  unfold ofChars? at read
  split at read
  · -- behind `L` stands a name that a semicolon closes
    rename_i rest
    split at read
    · rename_i closed
      have whole : rest.dropLast ++ [';'] = rest :=
        List.dropLast_append_getLast? ';' (by simpa using closed)
      dsimp only at read
      split at read
      · cases read
      · rename_i legal
        simp only [Bool.or_eq_true, List.isEmpty_iff, List.any_eq_true, beq_iff_eq, not_or,
          not_exists, not_and] at legal
        cases read
        refine ⟨by simp [chars, whole], ?_, ?_, ?_⟩
        · simpa using legal.1
        · intro mem
          exact (legal.2 '[' (by simpa using mem)).1 rfl
        · intro mem
          exact (legal.2 ';' (by simpa using mem)).2 rfl
    · cases read
  · -- any other text is the letter of a primitive type
    rename_i code _
    split at read
    · rename_i known
      simp only [Bool.and_eq_true, Option.isSome_iff_exists, bne_iff_ne, ne_eq] at known
      obtain ⟨⟨type, found⟩, notVoid⟩ := known
      cases read
      refine ⟨rfl, type, Primitive.code_of_ofCode? found, ?_⟩
      rintro rfl
      exact notVoid (Primitive.code_of_ofCode? found).symm
    · cases read
  · cases read

end ArrayElement

namespace ArrayName

/-- The leading brackets of an array name are its dimensions. -/
theorem takeWhile_chars {array : ArrayName} (plain : array.element.IsPlain) :
    array.chars.takeWhile (· == '[') = List.replicate array.dimensions '[' := by
  rw [chars, List.takeWhile_append_of_pos (by simp)]
  cases eq : array.element.chars with
  | nil => simp
  | cons c rest =>
    have first := ArrayElement.head?_chars plain c (by simp [eq])
    simp [first]

/-- What follows the leading brackets of an array name is its element. -/
theorem dropWhile_chars {array : ArrayName} (plain : array.element.IsPlain) :
    array.chars.dropWhile (· == '[') = array.element.chars := by
  rw [chars, List.dropWhile_append_of_pos (by simp)]
  cases eq : array.element.chars with
  | nil => rfl
  | cons c rest =>
    have first := ArrayElement.head?_chars plain c (by simp [eq])
    simp [first]

/-- Array names of plain elements tell arrays apart. -/
theorem eq_of_text_eq {left right : ArrayName} (leftPlain : left.element.IsPlain)
    (rightPlain : right.element.IsPlain) (same : left.text = right.text) : left = right := by
  have chars : left.chars = right.chars := String.ofList_inj.1 same
  -- both are cut at the same place, behind the leading brackets
  have dimensions : left.dimensions = right.dimensions := by
    have brackets := congrArg (List.takeWhile (· == '[')) chars
    rw [takeWhile_chars leftPlain, takeWhile_chars rightPlain] at brackets
    simpa using congrArg List.length brackets
  have element : left.element = right.element := by
    have elements := congrArg (List.dropWhile (· == '[')) chars
    rw [dropWhile_chars leftPlain, dropWhile_chars rightPlain] at elements
    exact ArrayElement.chars_injective elements
  cases left
  cases right
  rw [mk.injEq]
  exact ⟨element, dimensions⟩

/-- An array with a readable element is read back from its name. -/
theorem ofText?_text {array : ArrayName} (readable : array.element.IsReadable)
    (positive : array.dimensions ≠ 0) : ofText? array.text = some array := by
  have plain := readable.isPlain
  simp only [ofText?, text, String.toList_ofList, takeWhile_chars plain, dropWhile_chars plain,
    ArrayElement.ofChars?_chars readable]
  rw [if_neg (by simpa using positive)]
  simp

/-- What is read as an array name is the name of an array with a readable element and at least one
dimension. -/
theorem text_of_ofText? {text : String} {array : ArrayName} (read : ofText? text = some array) :
    array.text = text ∧ array.element.IsReadable ∧ array.dimensions ≠ 0 := by
  unfold ofText? at read
  dsimp only at read
  split at read
  · cases read
  · rename_i brackets
    obtain ⟨element, found, rfl⟩ := Option.map_eq_some_iff.1 read
    obtain ⟨written, readable⟩ := ArrayElement.chars_of_ofChars? found
    refine ⟨?_, readable, by simpa using brackets⟩
    have run : List.replicate (text.toList.takeWhile (· == '[')).length '['
        = text.toList.takeWhile (· == '[') := by
      symm
      rw [List.eq_replicate_iff]
      exact ⟨rfl, fun c mem => by simpa using List.mem_takeWhile_imp mem⟩
    rw [ArrayName.text, chars, written, run, List.takeWhile_append_dropWhile, String.ofList_toList]

/-- More dimensions are more brackets in front of an array name. -/
theorem text_add (element : ArrayElement) (m n : Nat) :
    text ⟨element, m + n⟩ = String.ofList (List.replicate n '[') ++ text ⟨element, m⟩ := by
  rw [text, text, chars, chars, Nat.add_comm m n, List.replicate_add, List.append_assoc,
    String.ofList_append]

/-- An array name starts with a bracket. -/
theorem head?_toList_text {array : ArrayName} (positive : array.dimensions ≠ 0) :
    array.text.toList.head? = some '[' := by
  obtain ⟨dimensions, eq⟩ := Nat.exists_eq_succ_of_ne_zero positive
  rw [text, String.toList_ofList, chars, eq, List.replicate_succ, List.cons_append, List.head?_cons]

/-- **Array names are read exactly as they are written.** A text is read as an element and a number
of dimensions exactly if there are dimensions, the text is what is written for them, and the element
is the letter of a primitive type other than `void` or a name that is not empty and holds neither
`[` nor `;`. No other text is read. -/
theorem ofText?_eq_some_iff (text : String) (element : ArrayElement) (dimensions : Nat) :
    (ofText? text = some ⟨element, dimensions⟩ ↔
      1 ≤ dimensions ∧ text = ArrayName.text ⟨element, dimensions⟩ ∧ element.IsReadable)
      ∧ (ofText? text = none ↔ ¬ ∃ array : ArrayName,
        1 ≤ array.dimensions ∧ text = array.text ∧ array.element.IsReadable) := by
  have reads : ∀ array : ArrayName, ofText? text = some array ↔
      1 ≤ array.dimensions ∧ text = array.text ∧ array.element.IsReadable := by
    intro array
    constructor
    · intro read
      obtain ⟨written, readable, positive⟩ := text_of_ofText? read
      exact ⟨Nat.pos_of_ne_zero positive, written.symm, readable⟩
    · rintro ⟨positive, rfl, readable⟩
      exact ofText?_text readable (Nat.ne_of_gt positive)
  refine ⟨reads ⟨element, dimensions⟩, ?_⟩
  rw [Option.eq_none_iff_forall_ne_some, not_exists]
  exact forall_congr' fun array => not_congr (reads array)

/-- A class whose name is the letter of a primitive type is no primitive type, and one whose name
starts with `L` keeps that letter. -/
example : ofText? "[LI;" = some ⟨.reference "I", 1⟩ ∧ ofText? "[I" = some ⟨.primitive 'I', 1⟩
    ∧ ofText? "[[LList;" = some ⟨.reference "List", 2⟩ := by
  decide

end ArrayName

end GenericTypes
