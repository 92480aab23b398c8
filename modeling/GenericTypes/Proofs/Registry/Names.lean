import GenericTypes.Proofs.Descriptor.Canonical
import GenericTypes.Proofs.Registry.AnswerNames

/-! # Names in texts of descriptors

A text of descriptors separates names by brackets, commas and blanks. No name under which a registry
finds a type holds any of these characters, and a type is found only under its own name: texts of
descriptors can be taken apart again. -/

namespace GenericTypes

/-- Whether the names in a scope can be told apart in a text of descriptors. -/
structure Scope.IsReadable (scope : Scope) : Prop where
  /-- A type is found under its own name only. -/
  name_eq : ∀ {name raw}, scope.find name = .ok raw → raw.name = name
  /-- A name under which a type is found holds no separator. -/
  isName : ∀ {name raw}, scope.find name = .ok raw → IsName name.toList

/-- A character of a legal name separates nothing. -/
theorem Definition.IsLegal.isName {name : String} (legal : IsLegal name) : IsName name.toList := by
  constructor
  · intro none
    exact legal.1 (String.toList_inj.1 none)
  · intro c mem
    have free := legal.isReserved_eq_false mem
    simp only [isReserved, Bool.or_eq_false_iff, beq_eq_false_iff_ne] at free
    obtain ⟨⟨⟨⟨noOpen, noClose⟩, noComma⟩, -⟩, noBlank⟩ := free
    exact ⟨noOpen, noComma, noClose, noBlank⟩

/-- The letters of primitive types separate nothing. -/
theorem Primitive.isNameChar_code (type : Primitive) : IsNameChar type.code := by
  cases type <;> exact ⟨by decide, by decide, by decide, by decide⟩

namespace Registry

variable {registry : Registry} {declaration : Declaration} {raw : RawType}

/-- The element of an array type is referred to without separators. -/
theorem Populated.isNameChar_arrayElement (populated : registry.Populated)
    (mem : declaration ∈ registry.declared) :
    ∀ c ∈ declaration.arrayElement.chars, IsNameChar c := by
  intro c letter
  cases isPrimitive : declaration.isPrimitive with
  | true =>
    obtain ⟨type, rfl⟩ := Declaration.eq_primitive_of_isPrimitive isPrimitive
    rw [List.mem_singleton.1 letter]
    exact type.isNameChar_code
  | false =>
    have marks : IsNameChar 'L' ∧ IsNameChar ';' :=
      ⟨⟨by decide, by decide, by decide, by decide⟩, ⟨by decide, by decide, by decide, by decide⟩⟩
    rw [Declaration.arrayElement_of_isPrimitive_eq_false isPrimitive, ArrayElement.chars,
      List.mem_cons, List.mem_append, List.mem_singleton] at letter
    rcases letter with rfl | inName | rfl
    · exact marks.1
    · exact (populated.isLegal mem).isName.2 c inName
    · exact marks.2

/-- The name of a raw type of a registry holds no separator. -/
theorem Populated.isName_name (populated : registry.Populated)
    (mem : raw.element ∈ registry.declared) : IsName raw.name.toList := by
  by_cases plain : raw.dimensions = 0
  · rw [RawType.name_of_dimensions_eq plain]
    exact (populated.isLegal mem).isName
  · have bracket : IsNameChar '[' := ⟨by decide, by decide, by decide, by decide⟩
    constructor
    · intro none
      have first := RawType.head?_name plain
      rw [none] at first
      cases first
    · intro c inName
      rw [RawType.name_of_dimensions_ne plain, ArrayName.text, String.toList_ofList,
        ArrayName.chars, List.mem_append, List.mem_replicate] at inName
      -- an array name is made of brackets and of what refers to the element
      rcases inName with ⟨-, rfl⟩ | inElement
      · exact bracket
      · exact populated.isNameChar_arrayElement mem c inElement

/-- The names of a registry can be told apart in a text of descriptors. -/
theorem Populated.isReadable_scope (populated : registry.Populated) :
    registry.scope.IsReadable where
  name_eq := populated.name_of_find
  isName := by
    intro name raw found
    have found : registry.find name = .ok raw := found
    rw [← populated.name_of_find found]
    exact populated.isName_name (populated.element_mem_of_find found)

end Registry

end GenericTypes
