import GenericTypes.Proofs.Registry.WellFormed

/-! # Populated registries

The registries that calls lead to from the standard one. Besides being well-formed they keep the
standard root, the primitive types, and the interfaces of arrays, which extend nothing. So all
declared names are legal, and the names of raw types tell them apart. -/

namespace GenericTypes

namespace Registry

variable {registry : Registry} {declaration : Declaration} {name : String}

/-- What holds of every registry that calls lead to from the standard one. -/
structure Populated (registry : Registry) : Prop extends registry.WellFormed where
  /-- The root is the standard one. -/
  topName_eq : registry.topName = standardTop
  /-- Every primitive type is declared. -/
  primitive_mem : ∀ type, .primitive type ∈ registry.declared
  /-- The interfaces of arrays are declared, and they extend nothing. -/
  arrayInterface_mem : ∀ name ∈ arrayInterfaces, .interface name [] [] ∈ registry.declared

namespace Populated

/-! ## Preservation -/

/-- Declaring a further type keeps a registry populated if it stays well-formed. -/
theorem insert (populated : registry.Populated)
    (wellFormed : (registry.insert declaration).WellFormed) :
    (registry.insert declaration).Populated where
  toWellFormed := wellFormed
  topName_eq := populated.topName_eq
  primitive_mem := fun type => List.mem_cons_of_mem _ (populated.primitive_mem type)
  arrayInterface_mem := fun name mem =>
    List.mem_cons_of_mem _ (populated.arrayInterface_mem name mem)

/-- A look-up keeps a registry populated. -/
theorem remember (populated : registry.Populated) (name : String) :
    (registry.remember name).Populated where
  toWellFormed := populated.toWellFormed.remember name
  topName_eq := by rw [topName_remember, populated.topName_eq]
  primitive_mem := by
    rw [declared_remember]
    exact populated.primitive_mem
  arrayInterface_mem := by
    rw [declared_remember]
    exact populated.arrayInterface_mem

/-- A definition keeps a registry populated. -/
theorem define (populated : registry.Populated) (definition : Definition) :
    (registry.define definition).2.Populated :=
  define_preserves definition (fun _ name populated => populated.remember name)
    (fun _ _ accepted populated =>
      populated.insert (populated.toWellFormed.insert_declaration accepted)) populated

/-! ## Names -/

/-- The name of a declared type is legal. -/
theorem isLegal (populated : registry.Populated) (mem : declaration ∈ registry.declared) :
    Definition.IsLegal declaration.name := by
  cases isTop : declaration.isTop with
  | false => exact populated.legal declaration mem isTop
  | true =>
    -- the root was not defined by a call, but the standard one has a legal name
    rw [populated.eq_top declaration mem isTop, populated.topName_eq]
    exact ⟨by decide, by decide⟩

/-- No type is declared under a name with a leading bracket. -/
theorem declared?_eq_none (populated : registry.Populated)
    (bracket : name.toList.head? = some '[') : registry.declared? name = none := by
  cases found : registry.declared? name with
  | none => rfl
  | some declaration =>
    obtain ⟨mem, rfl⟩ := mem_of_declared? found
    exact absurd bracket (populated.isLegal mem).head?_ne

/-- An array name that refers to a declared class or interface is found. -/
theorem find_of_ofText? (populated : registry.Populated) (mem : declaration ∈ registry.declared)
    (notPrimitive : declaration.isPrimitive = false) {dimensions : Nat}
    (read : ArrayName.ofText? name = some ⟨.reference declaration.name, dimensions⟩) :
    registry.find name = .ok ⟨declaration, dimensions⟩ := by
  have element : registry.element? (.reference declaration.name) = some declaration := by
    rw [element?, populated.declared?_name mem, Option.filter_some, notPrimitive]
    rfl
  have described := array?_of_ofText? read element
  rw [populated.find_eq, resolve?, populated.declared?_eq_none (head?_of_array? described),
    described]

end Populated

/-! ## The standard registry -/

/-- The root and the primitive types, the latest first. -/
theorem declared_primitives :
    primitives.declared = Primitive.all.reverse.map .primitive ++ [.top standardTop] := rfl

/-- A type in the registry of primitive types is the root or primitive. -/
theorem mem_declared_primitives (mem : declaration ∈ primitives.declared) :
    declaration = .top standardTop ∨ ∃ type, declaration = .primitive type := by
  rw [declared_primitives, List.mem_append, List.mem_map, List.mem_singleton] at mem
  rcases mem with ⟨type, -, rfl⟩ | rfl
  · exact .inr ⟨type, rfl⟩
  · exact .inl rfl

/-- The names of primitive types are legal. -/
theorem isLegal_name (type : Primitive) : Definition.IsLegal type.name := by
  cases type <;> exact ⟨by decide, by decide⟩

/-- The registry of primitive types is well-formed. -/
theorem wellFormed_primitives : primitives.WellFormed where
  names_nodup := by
    rw [declared_primitives]
    decide
  top_mem := by
    rw [declared_primitives]
    exact List.mem_append_right _ (List.mem_singleton.2 rfl)
  eq_top := by
    intro declaration mem isTop
    rcases mem_declared_primitives mem with rfl | ⟨type, rfl⟩
    · rfl
    · cases isTop
  legal := by
    intro declaration mem notTop
    rcases mem_declared_primitives mem with rfl | ⟨type, rfl⟩
    · cases notTop
    · exact isLegal_name type
  parent_mem := by
    intro declaration mem parent above
    rcases mem_declared_primitives mem with rfl | ⟨type, rfl⟩ <;> cases above
  superclass_isClass := by
    intro declaration mem supertype named
    rcases mem_declared_primitives mem with rfl | ⟨type, rfl⟩ <;> cases named
  interface_isInterface := by
    intro declaration mem supertype named
    rcases mem_declared_primitives mem with rfl | ⟨type, rfl⟩ <;> cases named
  array_agrees := fun _ mem => nomatch mem

/-- An interface that has a legal new name and extends nothing is accepted. -/
theorem define_plainInterface (legal : Definition.IsLegal name)
    (new : registry.declared? name = none) :
    registry.define { name, isInterface := true }
      = (.ok (.interface name [] []), registry.insert (.interface name [] [])) := by
  have sound : Definition.fault? { name, isInterface := true } = none := by
    simp [Definition.fault?, Definition.illegalParameter?, legal.1, legal.2]
  refine define_eq_of_declarationBy ?_ new
  simp only [declarationBy, sound, contains, new]
  rfl

/-- A class that has a legal new name and extends nothing but the root is accepted. -/
theorem define_plainClass (legal : Definition.IsLegal name)
    (new : registry.declared? name = none) :
    registry.define { name } = (.ok (.ordinary name [] ⟨.top registry.topName, []⟩ []),
      registry.insert (.ordinary name [] ⟨.top registry.topName, []⟩ [])) := by
  have sound : Definition.fault? { name } = none := by
    simp [Definition.fault?, Definition.illegalParameter?, legal.1, legal.2]
  refine define_eq_of_declarationBy ?_ new
  simp only [declarationBy, sound, contains, new]
  rfl

/-- A definition that is accepted is followed by the remaining ones. -/
theorem defineAll_cons_of_ok {definition : Definition} {rest : List Definition}
    {changed : Registry} (accepted : registry.define definition = (.ok declaration, changed)) :
    registry.defineAll (definition :: rest) = changed.defineAll rest := by
  rw [defineAll, accepted]

/-- The registry of primitive types with the interfaces of arrays. -/
def arrayReady : Registry :=
  (primitives.insert (.interface "java.io.Serializable" [] [])).insert
    (.interface "java.lang.Cloneable" [] [])

/-- The standard registry starts with the interfaces of arrays. -/
theorem standard_eq : standard = (arrayReady.defineAll (standardDefinitions.drop 2)).2 := by
  have serializable : primitives.define
      { name := "java.io.Serializable", isInterface := true } = _ :=
    define_plainInterface ⟨by decide, by decide⟩ (by decide)
  have cloneable : (primitives.insert (.interface "java.io.Serializable" [] [])).define
      { name := "java.lang.Cloneable", isInterface := true } = _ :=
    define_plainInterface ⟨by decide, by decide⟩ (by decide)
  -- the two definitions are evaluated one by one: the whole table is too large to compute with
  rw [standard, arrayReady, standardDefinitions, defineAll_cons_of_ok serializable,
    defineAll_cons_of_ok cloneable]
  rfl

/-- The registry of primitive types with the interfaces of arrays is populated. -/
theorem populated_arrayReady : arrayReady.Populated where
  toWellFormed := by
    refine (wellFormed_primitives.insert (by decide) rfl ⟨by decide, by decide⟩ ?_ ?_ ?_).insert
      (by decide) rfl ⟨by decide, by decide⟩ ?_ ?_ ?_
    all_goals
      intro _ none
      cases none
  topName_eq := rfl
  primitive_mem := by
    intro type
    refine List.mem_cons_of_mem _ (List.mem_cons_of_mem _ ?_)
    rw [declared_primitives]
    exact List.mem_append_left _ (List.mem_map_of_mem (List.mem_reverse.2 type.mem_all))
  arrayInterface_mem := by
    intro name mem
    rcases List.mem_cons.1 mem with rfl | mem
    · exact List.mem_cons_self
    · cases List.mem_singleton.1 mem
      exact List.mem_cons_of_mem _ List.mem_cons_self

/-- The standard registry is populated. -/
theorem populated_standard : standard.Populated := by
  -- the remaining definitions are calls like any others
  rw [standard_eq]
  exact defineAll_preserves (fun definition _ _ populated => populated.define definition)
    populated_arrayReady

/-- A name that no standard definition has is free in the standard registry if it is free before. -/
theorem declared?_standard_eq_none
    (others : ∀ definition ∈ standardDefinitions.drop 2, definition.name ≠ name)
    (free : arrayReady.declared? name = none) : standard.declared? name = none := by
  rw [standard_eq]
  refine defineAll_preserves (P := fun registry => registry.declared? name = none) ?_ free
  intro definition mem registry free
  rw [declared?_define_of_ne (others definition mem), free]

/-- Every registry that calls lead to from the standard one is populated. -/
theorem ReachableFrom.populated (reached : ReachableFrom standard registry) :
    registry.Populated :=
  reached.preserves (fun _ definition populated => populated.define definition)
    (fun _ name populated => populated.remember name) populated_standard

end Registry

end GenericTypes
