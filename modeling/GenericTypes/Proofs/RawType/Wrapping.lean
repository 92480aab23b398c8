import GenericTypes.Proofs.Registry.Handles

/-! # Wrapping raw types into arrays

Wrapping adds to the dimensions of a raw type and leaves its element alone, so arrays of arrays
collapse: two steps of wrapping are one, and each dimension puts one bracket in front of the name of
an array and one pair behind the short name. Raw types are compared by their names only. In a
populated registry these tell elements and dimensions apart, so that raw types wrapped in different
ways are equal exactly when the elements are and the dimensions add up to the same number. -/

namespace GenericTypes

namespace RawType

/-- Wrapping an array puts a bracket in front of its name for each dimension. -/
theorem name_arrayOf {raw : RawType} (isArray : raw.isArray = true) (n : Nat) :
    (raw.arrayOf n).name = String.ofList (List.replicate n '[') ++ raw.name := by
  have positive : raw.dimensions ≠ 0 := bne_iff_ne.1 isArray
  have wrapped : (raw.arrayOf n).dimensions ≠ 0 := by
    rw [dimensions_arrayOf]
    exact Nat.ne_of_gt (Nat.add_pos_left (Nat.pos_of_ne_zero positive) n)
  rw [name_of_dimensions_ne positive, name_of_dimensions_ne wrapped, dimensions_arrayOf,
    element_arrayOf, ArrayName.text_add]

/-- Wrapping puts a pair of brackets behind the short name for each dimension. -/
theorem shortName_arrayOf (raw : RawType) (n : Nat) :
    (raw.arrayOf n).shortName = raw.shortName ++ String.join (List.replicate n "[]") := by
  rw [shortName, shortName, dimensions_arrayOf, element_arrayOf, List.replicate_add,
    String.join_append, String.append_assoc]

/-- Wrapping keeps the base and adds to its dimensions. -/
theorem arrayBase_arrayOf (raw : RawType) (n : Nat) :
    (raw.arrayOf n).arrayBase = (raw.arrayBase.1, raw.arrayBase.2 + n) := by
  rw [arrayBase_eq, arrayBase_eq, element_arrayOf, dimensions_arrayOf]

/-- The base of a raw type is no array. -/
theorem isArray_arrayBase (raw : RawType) : raw.arrayBase.1.isArray = false := by
  rw [arrayBase_eq]
  rfl

end RawType

namespace Registry

variable {registry : Registry} {left right raw : RawType}

/-- Arrays of a raw type of the registry are raw types of the registry. -/
theorem IsHandle.arrayOf (handle : registry.IsHandle raw) (n : Nat) :
    registry.IsHandle (raw.arrayOf n) := by
  obtain ⟨known, dimensions, knows, rfl⟩ := handle
  exact ⟨known, dimensions + n, knows, RawType.arrayOf_arrayOf known dimensions n⟩

/-- Wrapped raw types are equal exactly when their elements are equal and their dimensions add up to
the same number. -/
theorem Populated.arrayOf_beq_arrayOf_iff (populated : registry.Populated)
    (leftMem : left.element ∈ registry.declared) (rightMem : right.element ∈ registry.declared)
    (m n : Nat) :
    (left.arrayOf m == right.arrayOf n) = true ↔
      (left.arrayBase.1 == right.arrayBase.1) = true
        ∧ left.arrayBase.2 + m = right.arrayBase.2 + n := by
  rw [RawType.beq_iff, RawType.beq_iff, RawType.arrayBase_eq, RawType.arrayBase_eq]
  constructor
  · intro names
    -- the name says which raw type it is, with its element and all its dimensions
    have same : left.arrayOf m = right.arrayOf n := populated.eq_of_name_eq leftMem rightMem names
    have elements : (left.arrayOf m).element = (right.arrayOf n).element :=
      congrArg RawType.element same
    have dimensions : (left.arrayOf m).dimensions = (right.arrayOf n).dimensions :=
      congrArg RawType.dimensions same
    exact ⟨congrArg Declaration.name elements, dimensions⟩
  · rintro ⟨names, dimensions⟩
    have elements : left.element = right.element :=
      populated.toWellFormed.eq_of_name_eq leftMem rightMem names
    have same : left.arrayOf m = right.arrayOf n := RawType.eq_of_parts elements dimensions
    rw [same]

/-- **Wrapping into arrays is a faithful action of the natural numbers.** Take raw types of a
registry that calls lead to from the standard one. Wrapping stays among them; no dimensions change
nothing, and wrapping in two steps is wrapping at once, in all that a raw type carries. The base of
a wrapped raw type is the base from before, which is a raw type of the registry and no array, with
more dimensions. The short name grows by pairs of brackets, and the name of an array by brackets in
front. Two wrapped raw types are equal exactly when their elements are equal and their dimensions
add up to the same number. -/
theorem ReachableFrom.arrayOf_faithful (reached : ReachableFrom standard registry)
    (leftHandle : registry.IsHandle left) (rightHandle : registry.IsHandle right) (m n : Nat) :
    registry.IsHandle (left.arrayOf n)
      ∧ left.arrayOf 0 = left
      ∧ (left.arrayOf m).arrayOf n = left.arrayOf (m + n)
      ∧ (left.arrayOf n).arrayBase = (left.arrayBase.1, left.arrayBase.2 + n)
      ∧ registry.IsHandle left.arrayBase.1
      ∧ left.arrayBase.1.isArray = false
      ∧ (left.arrayOf n).shortName = left.shortName ++ String.join (List.replicate n "[]")
      ∧ (left.isArray = true →
          (left.arrayOf n).name = String.ofList (List.replicate n '[') ++ left.name)
      ∧ ((left.arrayOf m == right.arrayOf n) = true ↔
          (left.arrayBase.1 == right.arrayBase.1) = true
            ∧ left.arrayBase.2 + m = right.arrayBase.2 + n) := by
  have populated := reached.populated
  have leftMem := populated.isHandle_iff.1 leftHandle
  have rightMem := populated.isHandle_iff.1 rightHandle
  have base : registry.IsHandle left.arrayBase.1 := by
    rw [RawType.arrayBase_eq]
    exact populated.isHandle_iff.2 leftMem
  exact ⟨leftHandle.arrayOf n, left.arrayOf_zero, left.arrayOf_arrayOf m n,
    left.arrayBase_arrayOf n, base, left.isArray_arrayBase, left.shortName_arrayOf n,
    fun isArray => RawType.name_arrayOf isArray n,
    populated.arrayOf_beq_arrayOf_iff leftMem rightMem m n⟩

/-- In the standard registry arrays of arrays of numbers are wrapped in two steps or at once, and
differ from those with fewer dimensions. -/
theorem ReachableFrom.arrayOf_faithful_ints :
    let int := RawType.ofDeclaration (.primitive .int)
    let ints := int.arrayOf 1
    ReachableFrom standard standard ∧ standard.IsHandle ints ∧ standard.IsHandle int
      ∧ ints.isArray = true ∧ ints.name = "[I" ∧ (ints.arrayOf 2).name = "[[[I"
      ∧ (ints.arrayOf 2 == int.arrayOf 3) = true ∧ (ints.arrayOf 2 == int.arrayOf 2) = false := by
  intro int ints
  have reached : ReachableFrom standard standard := .start
  have intHandle : standard.IsHandle int := populated_standard.isHandle_primitive .int
  have intsHandle : standard.IsHandle ints := intHandle.arrayOf 1
  have isArray : ints.isArray = true := rfl
  have name : ints.name = "[I" := by decide
  obtain ⟨-, -, -, -, -, -, -, grows, equal⟩ := reached.arrayOf_faithful intsHandle intHandle 2 2
  obtain ⟨-, -, -, -, -, -, -, -, collapses⟩ := reached.arrayOf_faithful intsHandle intHandle 2 3
  refine ⟨reached, intsHandle, intHandle, isArray, name, ?_, collapses.2 ⟨by decide, rfl⟩, ?_⟩
  · rw [grows isArray, name]
    decide
  · rw [← Bool.not_eq_true, equal]
    rintro ⟨-, dimensions⟩
    cases dimensions

end Registry

end GenericTypes
