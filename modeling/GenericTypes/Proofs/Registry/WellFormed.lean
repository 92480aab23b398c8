import Mathlib.Data.List.Nodup
import GenericTypes.Proofs.Name.Array
import GenericTypes.Proofs.Registry.Reachable

/-! # Well-formed registries

The invariant of every registry that calls lead to: no two declared types have the same name, the
types above a declared type are declared and of the right kind, names that were defined are legal,
and every remembered array type is what its name describes. The second invariant, `Populated`, adds
what the standard registry starts with and what no call takes away. -/

namespace GenericTypes

/-- The names that a definition can have. -/
def Definition.IsLegal (name : String) : Prop :=
  name ≠ "" ∧ isLegalName name = true

/-- The name of a definition without a fault is legal. -/
theorem Definition.isLegal_of_fault? {definition : Definition} (sound : definition.fault? = none) :
    IsLegal definition.name := by
  unfold fault? at sound
  split at sound
  · cases sound
  · rename_i nonempty
    split at sound
    · cases sound
    · rename_i legal
      exact ⟨by simpa using nonempty, by simpa using legal⟩

/-- A legal name does not start with a bracket. -/
theorem Definition.IsLegal.head?_ne {name : String} (legal : IsLegal name) :
    name.toList.head? ≠ some '[' := by
  have := legal.2
  simp only [isLegalName, Bool.and_eq_true, bne_iff_ne] at this
  exact this.1

/-- No character of a legal name is reserved. -/
theorem Definition.IsLegal.isReserved_eq_false {name : String} (legal : IsLegal name) {c : Char}
    (mem : c ∈ name.toList) : isReserved c = false := by
  have := legal.2
  simp only [isLegalName, Bool.and_eq_true, Bool.not_eq_true', List.any_eq_false] at this
  simpa using this.2 c mem

namespace Registry

variable {registry : Registry} {declaration : Declaration} {name : String} {raw : RawType}

/-! ## Declared types -/

/-- A declared type that is found by a name is declared and has that name. -/
theorem mem_of_declared? (found : registry.declared? name = some declaration) :
    declaration ∈ registry.declared ∧ declaration.name = name :=
  ⟨List.mem_of_find?_eq_some found, by simpa using List.find?_some found⟩

/-- A new declared type changes nothing for other names. -/
theorem declared?_insert_of_ne (different : declaration.name ≠ name) :
    (registry.insert declaration).declared? name = registry.declared? name := by
  have other : (declaration.name == name) = false := beq_eq_false_iff_ne.2 different
  simp [declared?, insert, other]

/-- A definition changes nothing for other names. -/
theorem declared?_define_of_ne {definition : Definition} (different : definition.name ≠ name) :
    (registry.define definition).2.declared? name = registry.declared? name := by
  rw [declared?, declared_define]
  cases accepted : registry.declaration definition with
  | error cause => rfl
  | ok declaration =>
    exact declared?_insert_of_ne (name_of_declaration accepted ▸ different)

/-- What is found stays found when a type with a new name is declared. -/
theorem declared?_insert_of_eq_some {known : Declaration}
    (new : registry.declared? declaration.name = none)
    (found : registry.declared? name = some known) :
    (registry.insert declaration).declared? name = some known := by
  rw [declared?_insert_of_ne, found]
  rintro rfl
  rw [new] at found
  cases found

/-! ## Names without what is remembered -/

/-- The declared type that an array name refers to by its element. -/
def element? (registry : Registry) : ArrayElement → Option Declaration
  | .primitive code => (Primitive.ofCode? code).bind fun type => registry.declared? type.name
  | .reference name => (registry.declared? name).filter (!·.isPrimitive)

/-- The array type that a name describes, going by the declared types alone. -/
def array? (registry : Registry) (name : String) : Option RawType := do
  let array ← ArrayName.ofText? name
  let element ← registry.element? array.element
  return ⟨element, array.dimensions⟩

/-- What a name stands for, going by the declared types alone. -/
def resolve? (registry : Registry) (name : String) : Option RawType :=
  match registry.declared? name with
  | some declaration => some (.ofDeclaration declaration)
  | none => registry.array? name

/-- What an array name describes stays the same when a type with a new name is declared. -/
theorem array?_insert_of_eq_some (new : registry.declared? declaration.name = none)
    (described : registry.array? name = some raw) :
    (registry.insert declaration).array? name = some raw := by
  simp only [array?, Option.bind_eq_bind, Option.pure_def, Option.bind_eq_some_iff] at described ⊢
  obtain ⟨array, read, element, found, built⟩ := described
  refine ⟨array, read, element, ?_, built⟩
  -- the element is looked up among the declared types, where nothing is lost
  unfold element? at found ⊢
  split at found
  · obtain ⟨type, letter, found⟩ := Option.bind_eq_some_iff.1 found
    rw [letter]
    exact declared?_insert_of_eq_some new found
  · obtain ⟨found, reference⟩ := Option.filter_eq_some_iff.1 found
    rw [declared?_insert_of_eq_some new found]
    exact Option.filter_some_pos reference

/-- An array type that a name describes has a readable name and a declared element. -/
theorem array?_cases (described : registry.array? name = some raw) :
    ∃ array, ArrayName.ofText? name = some array ∧ raw.dimensions = array.dimensions
      ∧ registry.element? array.element = some raw.element := by
  simp only [array?, Option.bind_eq_bind, Option.pure_def, Option.bind_eq_some_iff] at described
  obtain ⟨array, read, element, found, eq⟩ := described
  cases eq
  exact ⟨array, read, rfl, found⟩

/-- A readable array name with a declared element describes an array type. -/
theorem array?_of_ofText? {array : ArrayName} (read : ArrayName.ofText? name = some array)
    (element : registry.element? array.element = some declaration) :
    registry.array? name = some ⟨declaration, array.dimensions⟩ := by
  rw [array?, read, Option.bind_eq_bind, Option.bind_some, element]
  rfl

/-- A name that describes an array type starts with a bracket. -/
theorem head?_of_array? (described : registry.array? name = some raw) :
    name.toList.head? = some '[' := by
  obtain ⟨array, read, -, -⟩ := array?_cases described
  obtain ⟨rfl, -, positive⟩ := ArrayName.text_of_ofText? read
  exact ArrayName.head?_toList_text positive

/-- The element of an array type that a name describes is declared. -/
theorem element_mem_of_array? (described : registry.array? name = some raw) :
    raw.element ∈ registry.declared := by
  obtain ⟨array, -, -, found⟩ := array?_cases described
  unfold element? at found
  split at found
  · obtain ⟨type, -, found⟩ := Option.bind_eq_some_iff.1 found
    exact (mem_of_declared? found).1
  · exact (mem_of_declared? (Option.filter_eq_some_iff.1 found).1).1

/-! ## The invariant -/

/-- What holds of every registry that calls lead to. -/
structure WellFormed (registry : Registry) : Prop where
  /-- Declared types have different names. -/
  names_nodup : (registry.declared.map Declaration.name).Nodup
  /-- The root is declared. -/
  top_mem : .top registry.topName ∈ registry.declared
  /-- There is no other root. -/
  eq_top : ∀ declaration ∈ registry.declared, declaration.isTop = true →
    declaration = .top registry.topName
  /-- Every type but the root has a legal name. -/
  legal : ∀ declaration ∈ registry.declared, declaration.isTop = false →
    Definition.IsLegal declaration.name
  /-- The types above a declared type are declared. -/
  parent_mem : ∀ declaration ∈ registry.declared, ∀ parent ∈ declaration.parents,
    parent ∈ registry.declared
  /-- A superclass is a class. -/
  superclass_isClass : ∀ declaration ∈ registry.declared, ∀ supertype,
    declaration.superclass? = some supertype → supertype.declaration.isClass = true
  /-- An interface of a type is an interface. -/
  interface_isInterface : ∀ declaration ∈ registry.declared,
    ∀ supertype ∈ declaration.interfaces, supertype.declaration.isInterface = true
  /-- A remembered array type is what its name describes. -/
  array_agrees : ∀ entry ∈ registry.arrays,
    registry.declared? entry.1 = none ∧ registry.array? entry.1 = some entry.2

namespace WellFormed

/-- A declared type is found by its name. -/
theorem declared?_name (wellFormed : registry.WellFormed) (mem : declaration ∈ registry.declared) :
    registry.declared? declaration.name = some declaration := by
  cases found : registry.declared? declaration.name with
  | none =>
    have none := List.find?_eq_none.1 found declaration mem
    simp at none
  | some other =>
    obtain ⟨member, same⟩ := mem_of_declared? found
    rw [List.inj_on_of_nodup_map wellFormed.names_nodup member mem same]

/-- Declared types with the same name are the same. -/
theorem eq_of_name_eq (wellFormed : registry.WellFormed) {other : Declaration}
    (mem : declaration ∈ registry.declared) (otherMem : other ∈ registry.declared)
    (same : declaration.name = other.name) : declaration = other :=
  List.inj_on_of_nodup_map wellFormed.names_nodup mem otherMem same

/-- A remembered array type is found under a name that describes it. -/
theorem array?_of_lookup (wellFormed : registry.WellFormed)
    (remembered : registry.arrays.lookup name = some raw) : registry.array? name = some raw := by
  obtain ⟨before, after, eq, -⟩ := List.lookup_eq_some_iff.1 remembered
  refine (wellFormed.array_agrees (name, raw) ?_).2
  rw [eq]
  exact List.mem_append_right _ List.mem_cons_self

/-- Under a name without a leading bracket nothing is known but declared types. -/
theorem known?_of_head?_ne (wellFormed : registry.WellFormed)
    (plain : name.toList.head? ≠ some '[') :
    registry.known? name = (registry.declared? name).map .ofDeclaration := by
  rw [known?]
  cases registry.declared? name with
  | some declaration => rfl
  | none =>
    cases remembered : registry.arrays.lookup name with
    | none => rfl
    | some array => exact absurd (head?_of_array? (wellFormed.array?_of_lookup remembered)) plain

/-- The type that an array name refers to is the declared one. -/
theorem component?_eq (wellFormed : registry.WellFormed) {element : ArrayElement}
    (readable : element.IsReadable) :
    registry.component? element = (registry.element? element).map .ofDeclaration := by
  cases element with
  | primitive code =>
    rw [component?, element?, Option.map_bind]
    exact Option.bind_congr fun type _ => wellFormed.known?_of_head?_ne type.head?_name
  | reference name =>
    rw [component?, element?, wellFormed.known?_of_head?_ne readable.head?_ne, Option.filter_map]
    rfl

/-- What a name describes it describes by the declared types. -/
theorem described?_eq (wellFormed : registry.WellFormed) (name : String) :
    registry.described? name = registry.array? name := by
  rw [described?, array?]
  refine Option.bind_congr fun array read => ?_
  rw [wellFormed.component?_eq (ArrayName.text_of_ofText? (Option.mem_def.1 read)).2.1]
  cases registry.element? array.element with
  | none => rfl
  | some element =>
    show some (RawType.mk element (0 + array.dimensions)) = some ⟨element, array.dimensions⟩
    rw [Nat.zero_add]

/-- A registry finds what it resolves by the declared types alone: remembering changes nothing. -/
theorem find_eq (wellFormed : registry.WellFormed) (name : String) :
    registry.find name = match registry.resolve? name with
      | some raw => .ok raw
      | none => .error (.typeNotFound name) := by
  rw [find, resolve?, wellFormed.described?_eq, known?]
  cases declared : registry.declared? name with
  | some declaration => rfl
  | none =>
    dsimp only
    cases remembered : registry.arrays.lookup name with
    | none => rfl
    | some array => rw [wellFormed.array?_of_lookup remembered]

/-- A name is found exactly when it resolves by the declared types. -/
theorem find_eq_ok_iff (wellFormed : registry.WellFormed) :
    registry.find name = .ok raw ↔ registry.resolve? name = some raw := by
  rw [wellFormed.find_eq]
  cases registry.resolve? name <;> simp

/-- What a name resolves to: a declared type of that name, or an array type that it describes. -/
theorem find_cases (wellFormed : registry.WellFormed) (found : registry.find name = .ok raw) :
    (∃ declaration, registry.declared? name = some declaration ∧ raw = .ofDeclaration declaration)
      ∨ registry.declared? name = none ∧ registry.array? name = some raw := by
  rw [wellFormed.find_eq_ok_iff, resolve?] at found
  cases declared : registry.declared? name with
  | some declaration =>
    rw [declared] at found
    cases found
    exact .inl ⟨declaration, rfl, rfl⟩
  | none =>
    rw [declared] at found
    exact .inr ⟨rfl, found⟩

/-- The element of a raw type that is found is declared. -/
theorem element_mem_of_find (wellFormed : registry.WellFormed)
    (found : registry.find name = .ok raw) : raw.element ∈ registry.declared := by
  rcases wellFormed.find_cases found with ⟨declaration, declared, rfl⟩ | ⟨-, described⟩
  · exact (mem_of_declared? declared).1
  · exact element_mem_of_array? described

/-- A declared type is found under its name. -/
theorem find_name (wellFormed : registry.WellFormed) (mem : declaration ∈ registry.declared) :
    registry.find declaration.name = .ok (.ofDeclaration declaration) := by
  rw [find, known?, wellFormed.declared?_name mem]

/-- The root is found under its name. -/
theorem isTop_iff (wellFormed : registry.WellFormed) (mem : declaration ∈ registry.declared) :
    declaration.isTop = true ↔ declaration = .top registry.topName := by
  refine ⟨wellFormed.eq_top declaration mem, ?_⟩
  rintro rfl
  rfl

/-! ## Preservation -/

/-- Declaring a type with a new legal name and with supertypes of the right kinds keeps a registry
well-formed. -/
theorem insert (wellFormed : registry.WellFormed)
    (new : registry.declared? declaration.name = none) (notTop : declaration.isTop = false)
    (legal : Definition.IsLegal declaration.name)
    (parents : ∀ parent ∈ declaration.parents, parent ∈ registry.declared)
    (superclass : ∀ supertype, declaration.superclass? = some supertype →
      supertype.declaration.isClass = true)
    (interfaces : ∀ supertype ∈ declaration.interfaces,
      supertype.declaration.isInterface = true) :
    (registry.insert declaration).WellFormed where
  names_nodup := by
    refine List.nodup_cons.2 ⟨?_, wellFormed.names_nodup⟩
    intro mem
    obtain ⟨other, member, same⟩ := List.mem_map.1 mem
    rw [← same, wellFormed.declared?_name member] at new
    cases new
  top_mem := List.mem_cons_of_mem _ wellFormed.top_mem
  eq_top := by
    intro other mem isTop
    rcases List.mem_cons.1 mem with rfl | mem
    · rw [notTop] at isTop
      cases isTop
    · exact wellFormed.eq_top other mem isTop
  legal := by
    intro other mem isTop
    rcases List.mem_cons.1 mem with rfl | mem
    · exact legal
    · exact wellFormed.legal other mem isTop
  parent_mem := by
    intro other mem parent above
    rcases List.mem_cons.1 mem with rfl | mem
    · exact List.mem_cons_of_mem _ (parents parent above)
    · exact List.mem_cons_of_mem _ (wellFormed.parent_mem other mem parent above)
  superclass_isClass := by
    intro other mem
    rcases List.mem_cons.1 mem with rfl | mem
    · exact superclass
    · exact wellFormed.superclass_isClass other mem
  interface_isInterface := by
    intro other mem
    rcases List.mem_cons.1 mem with rfl | mem
    · exact interfaces
    · exact wellFormed.interface_isInterface other mem
  array_agrees := by
    intro entry mem
    obtain ⟨undeclared, described⟩ := wellFormed.array_agrees entry mem
    refine ⟨?_, array?_insert_of_eq_some new described⟩
    -- A legal name has no leading bracket, so it is not the name of a remembered array.
    rw [declared?_insert_of_ne, undeclared]
    intro same
    exact legal.head?_ne (same ▸ head?_of_array? described)

/-- A superclass in an accepted definition is a declared class. -/
theorem superclass_spec (wellFormed : registry.WellFormed) {definition : Definition}
    {superclass : Supertype}
    (accepted : registry.superclass registry.find definition = .ok superclass) :
    superclass.declaration ∈ registry.declared ∧ superclass.declaration.isClass = true := by
  unfold Registry.superclass at accepted
  split at accepted
  · cases accepted
    exact ⟨wellFormed.top_mem, rfl⟩
  · obtain ⟨isClass, name, found⟩ := supertype_cases accepted
    exact ⟨wellFormed.element_mem_of_find found, isClass⟩

/-- The interfaces in an accepted definition are declared interfaces. -/
theorem interfaces_spec (wellFormed : registry.WellFormed) {definition : Definition}
    {interfaces : List Supertype}
    (accepted : Registry.interfaces registry.find definition = .ok interfaces)
    {supertype : Supertype} (mem : supertype ∈ interfaces) :
    supertype.declaration ∈ registry.declared ∧ supertype.declaration.isInterface = true := by
  obtain ⟨signature, -, resolved⟩ := exists_of_mem_mapM accepted mem
  obtain ⟨isInterface, name, found⟩ := supertype_cases resolved
  exact ⟨wellFormed.element_mem_of_find found, isInterface⟩

/-- Declaring what a definition stands for keeps a registry well-formed. -/
theorem insert_declaration (wellFormed : registry.WellFormed) {definition : Definition}
    (accepted : registry.declaration definition = .ok declaration) :
    (registry.insert declaration).WellFormed := by
  obtain ⟨sound, new, interfaces, interfacesEq, shape⟩ := declaration_cases accepted
  have legal := Definition.isLegal_of_fault? sound
  have interfacesSpec : ∀ supertype ∈ interfaces, supertype.declaration ∈ registry.declared
      ∧ supertype.declaration.isInterface = true :=
    fun supertype mem => wellFormed.interfaces_spec interfacesEq mem
  rcases shape with ⟨-, -, rfl⟩ | ⟨-, superclass, superclassEq, rfl⟩
  · -- above an interface stand its interfaces only
    refine wellFormed.insert new rfl legal ?_ (fun _ named => nomatch named)
      fun supertype mem => (interfacesSpec supertype mem).2
    intro parent above
    obtain ⟨supertype, mem, rfl⟩ := List.mem_map.1 above
    exact (interfacesSpec supertype mem).1
  · -- above a class stand its superclass and its interfaces
    obtain ⟨superclassMem, isClass⟩ := wellFormed.superclass_spec superclassEq
    refine wellFormed.insert new rfl legal ?_ (fun supertype named => ?_)
      fun supertype mem => (interfacesSpec supertype mem).2
    · intro parent above
      obtain ⟨supertype, mem, rfl⟩ := List.mem_map.1 above
      rcases List.mem_cons.1 mem with rfl | mem
      · exact superclassMem
      · exact (interfacesSpec supertype mem).1
    · cases named
      exact isClass

/-- A look-up keeps a registry well-formed. -/
theorem remember (wellFormed : registry.WellFormed) (name : String) :
    (registry.remember name).WellFormed := by
  unfold Registry.remember
  split
  · rename_i array unknown described
    exact { wellFormed with
      array_agrees := by
        intro entry mem
        rcases List.mem_cons.1 mem with rfl | mem
        · -- only what a free name describes is remembered
          rw [wellFormed.described?_eq] at described
          refine ⟨?_, described⟩
          cases declared : registry.declared? name with
          | none => exact declared
          | some declaration =>
            rw [known?, declared] at unknown
            cases unknown
        · exact wellFormed.array_agrees entry mem }
  · exact wellFormed

/-- A definition keeps a registry well-formed. -/
theorem define (wellFormed : registry.WellFormed) (definition : Definition) :
    (registry.define definition).2.WellFormed :=
  define_preserves definition (fun _ name wellFormed => wellFormed.remember name)
    (fun _ _ accepted wellFormed => wellFormed.insert_declaration accepted) wellFormed

/-- After a definition that is accepted its type is declared under its name. -/
theorem declared?_define (wellFormed : registry.WellFormed) {definition : Definition}
    (accepted : registry.declaration definition = .ok declaration) :
    (registry.define definition).2.declared? definition.name = some declaration := by
  have mem : declaration ∈ (registry.define definition).2.declared := by
    rw [declared_define, accepted]
    exact List.mem_append_left _ (List.mem_singleton_self declaration)
  rw [← name_of_declaration accepted]
  exact (wellFormed.define definition).declared?_name mem

end WellFormed

end Registry

end GenericTypes
