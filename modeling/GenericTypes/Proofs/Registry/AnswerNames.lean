import GenericTypes.Proofs.Registry.Growth
import GenericTypes.Proofs.Registry.Handles

/-! # Answers and their names

A type that is looked up has the name that was asked for, with one exception. An array name may
refer to a primitive type by its letter. When a class, an interface or the root is declared under
the name of that primitive type, the answer is an array of the declared type, and such an array is
called by a reference to its element. No registry that starts from the standard one is in this
position, because there the names of primitive types are taken. -/

namespace GenericTypes

namespace Registry

variable {registry : Registry} {declaration : Declaration} {name : String} {raw : RawType}

/-- Whether a name is read as an array of a type that it does not refer to: it refers to a primitive
type by its letter, and a type that is not primitive is declared under the name of that type. -/
def Misreads (registry : Registry) (name : String) : Prop :=
  registry.declared? name = none
    ∧ ∃ (type : Primitive) (dimensions : Nat) (declaration : Declaration),
      name = ArrayName.text ⟨.primitive type.code, dimensions⟩
        ∧ registry.declared? type.name = some declaration ∧ declaration.isPrimitive = false

/-- The element that an array name refers to is referred to in this way, or the name has the letter
of a primitive type under whose name another type is declared. -/
theorem element?_cases {element : ArrayElement}
    (found : registry.element? element = some declaration) :
    declaration.arrayElement = element
      ∨ ∃ type : Primitive, element = .primitive type.code
        ∧ registry.declared? type.name = some declaration ∧ declaration.isPrimitive = false := by
  unfold element? at found
  split at found
  · obtain ⟨type, letter, found⟩ := Option.bind_eq_some_iff.1 found
    rw [← Primitive.code_of_ofCode? letter]
    cases isPrimitive : declaration.isPrimitive with
    | false => exact .inr ⟨type, rfl, found, rfl⟩
    | true =>
      -- the primitive type that is declared under the name is the one that has it
      obtain ⟨other, rfl⟩ := Declaration.eq_primitive_of_isPrimitive isPrimitive
      have names := congrArg Primitive.ofName? (mem_of_declared? found).2
      rw [Declaration.name, Primitive.ofName?_name, Primitive.ofName?_name] at names
      rw [← Option.some.inj names]
      exact .inl rfl
  · obtain ⟨found, reference⟩ := Option.filter_eq_some_iff.1 found
    rw [Declaration.arrayElement_of_isPrimitive_eq_false (by simpa using reference),
      (mem_of_declared? found).2]
    exact .inl rfl

namespace WellFormed

/-- What is found under a name has that name and the name is not misread; or the name is misread,
and what is found is an array of the type that is declared under the name of a primitive type. -/
theorem name_cases_of_find (wellFormed : registry.WellFormed)
    (found : registry.find name = .ok raw) :
    raw.name = name ∧ ¬ registry.Misreads name
      ∨ registry.Misreads name ∧ raw.name ≠ name ∧ raw.dimensions ≠ 0
        ∧ raw.element.isPrimitive = false
        ∧ ∃ type : Primitive, registry.declared? type.name = some raw.element := by
  rcases wellFormed.find_cases found with ⟨declaration, declared, rfl⟩ | ⟨undeclared, described⟩
  · -- a declared type is not misread
    refine .inl ⟨(mem_of_declared? declared).2, ?_⟩
    rintro ⟨undeclared, -⟩
    rw [declared] at undeclared
    cases undeclared
  · obtain ⟨array, read, dimensions, element⟩ := array?_cases described
    obtain ⟨written, readable, positive⟩ := ArrayName.text_of_ofText? read
    rw [← dimensions] at positive
    have name : raw.name = ArrayName.text ⟨raw.element.arrayElement, raw.dimensions⟩ :=
      RawType.name_of_dimensions_ne positive
    rcases element?_cases element with same | ⟨type, letter, declared, notPrimitive⟩
    · refine .inl ⟨by rw [name, same, dimensions, written], ?_⟩
      rintro ⟨-, type, layers, declaration, text, declared, notPrimitive⟩
      -- the letter would be that of the element, which is declared and not primitive
      have letters : (⟨.primitive type.code, layers⟩ : ArrayName) = array := by
        refine ArrayName.eq_of_text_eq ?_ readable.isPlain (text.symm.trans written.symm)
        exact (Declaration.primitive type).isPlain_arrayElement
      rw [← letters, element?, Primitive.ofCode?_code, Option.bind_some, declared] at element
      cases element
      rw [Declaration.arrayElement_of_isPrimitive_eq_false notPrimitive, ← letters] at same
      cases same
    · have misread : registry.Misreads _ :=
        ⟨undeclared, type, array.dimensions, raw.element, by rw [← written, ← letter], declared,
          notPrimitive⟩
      refine .inr ⟨misread, ?_, positive, notPrimitive, type, declared⟩
      -- a reference to an element is not its letter
      rw [name, ← written]
      intro same
      have arrays := ArrayName.eq_of_text_eq raw.element.isPlain_arrayElement readable.isPlain same
      rw [Declaration.arrayElement_of_isPrimitive_eq_false notPrimitive] at arrays
      have elements := congrArg ArrayName.element arrays
      rw [letter] at elements
      cases elements

end WellFormed

namespace Populated

/-- A populated registry misreads no name. -/
theorem not_misreads (populated : registry.Populated) : ¬ registry.Misreads name := by
  rintro ⟨-, type, -, declaration, -, declared, notPrimitive⟩
  rw [populated.declared?_primitive] at declared
  cases declared
  cases notPrimitive

/-- What is found under a name has that name. -/
theorem name_of_find (populated : registry.Populated) (found : registry.find name = .ok raw) :
    raw.name = name := by
  rcases populated.name_cases_of_find found with ⟨same, -⟩ | ⟨misread, -⟩
  · exact same
  · exact absurd misread populated.not_misreads

/-- What a registry knows is found under its own name. -/
theorem find_name_of_knows (populated : registry.Populated) (known : registry.Knows raw) :
    registry.find raw.name = .ok raw := by
  obtain ⟨name, found⟩ := known
  have found : registry.find name = .ok raw := found
  rwa [populated.name_of_find found]

end Populated

/-- **A type that is looked up has the name that was asked for unless the name is misread.** In a
registry that calls lead to, take a successful look-up. The answer has the name exactly when the
name is not misread; when it is, the answer is called by a reference to its element. Where the
standard registry is the start no name is misread. -/
theorem IsReachable.name_of_lookup_iff (reached : registry.IsReachable)
    (found : (registry.lookup name).1 = .ok raw) :
    (raw.name = name ↔ ¬ registry.Misreads name)
      ∧ (registry.Misreads name →
        raw.name = ArrayName.text ⟨.reference raw.element.name, raw.dimensions⟩)
      ∧ (ReachableFrom standard registry → raw.name = name) := by
  have cases := reached.wellFormed.name_cases_of_find found
  refine ⟨?_, ?_, ?_⟩
  · rcases cases with ⟨same, read⟩ | ⟨misread, different, -⟩
    · exact iff_of_true same read
    · exact iff_of_false different (not_not_intro misread)
  · intro misread
    rcases cases with ⟨-, read⟩ | ⟨-, -, positive, notPrimitive, -⟩
    · exact absurd misread read
    · rw [RawType.name_of_dimensions_ne positive,
        Declaration.arrayElement_of_isPrimitive_eq_false notPrimitive]
  · intro standard
    exact standard.populated.name_of_find found

/-- In the standard registry the name of arrays of arrays of numbers is not misread. -/
theorem IsReachable.name_of_lookup_arrayOfInts :
    standard.IsReachable ∧ (standard.lookup "[[I").1 = .ok ⟨.primitive .int, 2⟩
      ∧ ¬ standard.Misreads "[[I" := by
  have reached : standard.IsReachable := ReachableFrom.start.isReachable
  have found : standard.find "[[I" = .ok ⟨.primitive .int, 2⟩ := by
    have bracket : "[[I".toList.head? = some '[' := by decide
    have undeclared := populated_standard.declared?_eq_none bracket
    have read : ArrayName.ofText? "[[I" = some ⟨.primitive 'I', 2⟩ := by decide
    have int : standard.element? (.primitive 'I') = some (.primitive .int) :=
      populated_standard.declared?_primitive .int
    have described : standard.array? "[[I" = some ⟨.primitive .int, 2⟩ :=
      array?_of_ofText? read int
    rw [populated_standard.find_eq, resolve?, undeclared, described]
  exact ⟨reached, found, (reached.name_of_lookup_iff found).1.1 (by decide)⟩

/-- Below a root alone a class can have the name of a primitive type. The array name with the letter
of that type then finds an array that has another name. -/
theorem name_of_lookup_letterOfClass :
    ((ofTop "T").define { name := "int" }).2.IsReachable
      ∧ (((ofTop "T").define { name := "int" }).2.lookup "[I").1
        = .ok ⟨.ordinary "int" [] ⟨.top "T", []⟩ [], 1⟩
      ∧ RawType.name ⟨.ordinary "int" [] ⟨.top "T", []⟩ [], 1⟩ = "[Lint;"
      ∧ RawType.name ⟨.ordinary "int" [] ⟨.top "T", []⟩ [], 1⟩ ≠ "[I" := by
  refine ⟨⟨ofTop "T", .ofTop "T", .define .start _⟩, rfl, ?_, ?_⟩
  · decide
  · decide

end Registry

end GenericTypes
