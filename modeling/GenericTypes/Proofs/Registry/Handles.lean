import GenericTypes.Proofs.Registry.Populated

/-! # Raw types of a registry

The raw types that a registry answers, and the arrays of these. They are the raw types with a
declared element. In a populated registry the name of such a raw type says which it is. -/

namespace GenericTypes

namespace Declaration

/-- Array names refer to an element by something else than a bracket. -/
theorem isPlain_arrayElement (declaration : Declaration) : declaration.arrayElement.IsPlain := by
  cases declaration with
  | primitive type =>
    intro same
    exact (ArrayElement.code_ne type).1 (ArrayElement.primitive.inj same)
  | top name => exact nofun
  | ordinary name parameters superclass interfaces => exact nofun
  | interface name parameters interfaces => exact nofun

/-- A primitive declaration is one of the primitive types. -/
theorem eq_primitive_of_isPrimitive {declaration : Declaration}
    (isPrimitive : declaration.isPrimitive = true) : ∃ type, declaration = .primitive type := by
  cases declaration with
  | primitive type => exact ⟨type, rfl⟩
  | _ => cases isPrimitive

/-- Array names refer to a type that is not primitive by its name. -/
theorem arrayElement_of_isPrimitive_eq_false {declaration : Declaration}
    (notPrimitive : declaration.isPrimitive = false) :
    declaration.arrayElement = .reference declaration.name := by
  cases declaration with
  | primitive type => cases notPrimitive
  | top name => rfl
  | ordinary name parameters superclass interfaces => rfl
  | interface name parameters interfaces => rfl

/-- Elements to which array names refer in the same way have the same name. -/
theorem name_eq_of_arrayElement_eq {left right : Declaration}
    (same : left.arrayElement = right.arrayElement) : left.name = right.name := by
  by_cases leftKind : left.isPrimitive = true <;> by_cases rightKind : right.isPrimitive = true
  · obtain ⟨type, rfl⟩ := eq_primitive_of_isPrimitive leftKind
    obtain ⟨other, rfl⟩ := eq_primitive_of_isPrimitive rightKind
    have codes := congrArg Primitive.ofCode? (ArrayElement.primitive.inj same)
    rw [Primitive.ofCode?_code, Primitive.ofCode?_code] at codes
    rw [Option.some.inj codes]
  · -- a letter refers to no type by its name
    obtain ⟨type, rfl⟩ := eq_primitive_of_isPrimitive leftKind
    rw [arrayElement_of_isPrimitive_eq_false (eq_false_of_ne_true rightKind)] at same
    cases same
  · obtain ⟨type, rfl⟩ := eq_primitive_of_isPrimitive rightKind
    rw [arrayElement_of_isPrimitive_eq_false (eq_false_of_ne_true leftKind)] at same
    cases same
  · rw [arrayElement_of_isPrimitive_eq_false (eq_false_of_ne_true leftKind),
      arrayElement_of_isPrimitive_eq_false (eq_false_of_ne_true rightKind)] at same
    exact ArrayElement.reference.inj same

end Declaration

namespace RawType

/-- Raw types with the same element and the same dimensions are the same. -/
theorem eq_of_parts {left right : RawType} (element : left.element = right.element)
    (dimensions : left.dimensions = right.dimensions) : left = right := by
  cases left
  cases right
  rw [mk.injEq]
  exact ⟨element, dimensions⟩

/-- A raw type is its element wrapped into its dimensions. -/
@[simp] theorem arrayOf_ofDeclaration_element (raw : RawType) :
    (ofDeclaration raw.element).arrayOf raw.dimensions = raw :=
  eq_of_parts rfl (Nat.zero_add _)

/-- A raw type without dimensions is called by the name of its element. -/
theorem name_of_dimensions_eq {raw : RawType} (plain : raw.dimensions = 0) :
    raw.name = raw.element.name := by
  rw [name, if_pos plain]

/-- An array is called by its array name. -/
theorem name_of_dimensions_ne {raw : RawType} (positive : raw.dimensions ≠ 0) :
    raw.name = ArrayName.text ⟨raw.element.arrayElement, raw.dimensions⟩ := by
  rw [name, if_neg positive]

/-- The name of an array starts with a bracket. -/
theorem head?_name {raw : RawType} (positive : raw.dimensions ≠ 0) :
    raw.name.toList.head? = some '[' := by
  rw [name_of_dimensions_ne positive]
  exact ArrayName.head?_toList_text positive

end RawType

namespace Registry

variable {registry : Registry} {declaration : Declaration} {name : String} {raw : RawType}

/-- Whether a raw type is the answer to some look-up. -/
def Knows (registry : Registry) (raw : RawType) : Prop :=
  ∃ name, (registry.lookup name).1 = .ok raw

/-- Whether a raw type is the answer to some look-up, or an array of such an answer. -/
def IsHandle (registry : Registry) (raw : RawType) : Prop :=
  ∃ known dimensions, registry.Knows known ∧ raw = known.arrayOf dimensions

/-- The raw types of a registry are those with a declared element. -/
theorem WellFormed.isHandle_iff (wellFormed : registry.WellFormed) :
    registry.IsHandle raw ↔ raw.element ∈ registry.declared := by
  constructor
  · rintro ⟨known, dimensions, ⟨name, found⟩, rfl⟩
    rw [RawType.element_arrayOf]
    exact wellFormed.element_mem_of_find found
  · intro mem
    exact ⟨.ofDeclaration raw.element, raw.dimensions, ⟨_, wellFormed.find_name mem⟩,
      raw.arrayOf_ofDeclaration_element.symm⟩

namespace Populated

/-- Raw types of a registry with the same name are the same. -/
theorem eq_of_name_eq (populated : registry.Populated) {left right : RawType}
    (leftMem : left.element ∈ registry.declared) (rightMem : right.element ∈ registry.declared)
    (same : left.name = right.name) : left = right := by
  by_cases leftPlain : left.dimensions = 0 <;> by_cases rightPlain : right.dimensions = 0
  · rw [RawType.name_of_dimensions_eq leftPlain, RawType.name_of_dimensions_eq rightPlain] at same
    exact RawType.eq_of_parts (populated.toWellFormed.eq_of_name_eq leftMem rightMem same)
      (leftPlain.trans rightPlain.symm)
  · -- no declared type is called like an array
    have bracket := RawType.head?_name rightPlain
    rw [← same, RawType.name_of_dimensions_eq leftPlain] at bracket
    exact absurd bracket (populated.isLegal leftMem).head?_ne
  · have bracket := RawType.head?_name leftPlain
    rw [same, RawType.name_of_dimensions_eq rightPlain] at bracket
    exact absurd bracket (populated.isLegal rightMem).head?_ne
  · rw [RawType.name_of_dimensions_ne leftPlain, RawType.name_of_dimensions_ne rightPlain] at same
    have arrays := ArrayName.eq_of_text_eq left.element.isPlain_arrayElement
      right.element.isPlain_arrayElement same
    rw [ArrayName.mk.injEq] at arrays
    obtain ⟨elements, dimensions⟩ := arrays
    exact RawType.eq_of_parts (populated.toWellFormed.eq_of_name_eq leftMem rightMem
      (Declaration.name_eq_of_arrayElement_eq elements)) dimensions

/-- The primitive types are raw types of the registry. -/
theorem isHandle_primitive (populated : registry.Populated) (type : Primitive) :
    registry.IsHandle (.ofDeclaration (.primitive type)) :=
  populated.isHandle_iff.2 (populated.primitive_mem type)

/-- A primitive type is found by its name. -/
theorem declared?_primitive (populated : registry.Populated) (type : Primitive) :
    registry.declared? type.name = some (.primitive type) :=
  populated.declared?_name (populated.primitive_mem type)

/-- A primitive type is found under its name. -/
theorem find_primitive (populated : registry.Populated) (type : Primitive) :
    registry.find type.name = .ok (.ofDeclaration (.primitive type)) :=
  populated.find_name (populated.primitive_mem type)

/-- The standard root is found under its name. -/
theorem find_standardTop (populated : registry.Populated) :
    registry.find standardTop = .ok (.ofDeclaration (.top standardTop)) := by
  have found := populated.find_name populated.top_mem
  rwa [populated.topName_eq] at found

end Populated

end Registry

end GenericTypes
