import GenericTypes.Proofs.Descriptor.ReaderNodes
import GenericTypes.Proofs.Descriptor.Search
import GenericTypes.Proofs.Registry.ArrayLookup
import GenericTypes.RawType.Level

/-! # Names as identity

Raw types are compared by their names, but they carry much more than a name, and callers get them in
many ways: by look-ups, as arrays and elements of other raw types, as supertypes, and inside
descriptors that were read or converted. None of these ways leaves the raw types over declared
elements. Where the standard registry is the start, the name of such a raw type says which it is, so
comparing names is comparing everything. -/

namespace GenericTypes

/-- Whether two raw types agree in all that they carry and in all that is decided about them. -/
structure RawType.Alike (left right : RawType) : Prop where
  /-- They have the same element. -/
  element_eq : left.element = right.element
  /-- They have the same dimensions. -/
  dimensions_eq : left.dimensions = right.dimensions
  /-- They have the same type parameters. -/
  parameters_eq : left.parameters = right.parameters
  /-- They have the same generic superclass. -/
  superclass?_eq : left.superclass? = right.superclass?
  /-- They have the same generic interfaces. -/
  interfaces_eq : left.interfaces = right.interfaces
  /-- Both are the root or none of them is. -/
  isTop_eq : left.isTop = right.isTop
  /-- They have the same inheritance level. -/
  level_eq : left.level = right.level
  /-- They accept the same raw types. -/
  accepts_eq : ∀ source, left.accepts source = right.accepts source
  /-- They are accepted by the same raw types. -/
  accepted_eq : ∀ target : RawType, target.accepts left = target.accepts right

/-- A raw type agrees with itself. -/
theorem RawType.Alike.refl (raw : RawType) : raw.Alike raw :=
  ⟨rfl, rfl, rfl, rfl, rfl, rfl, rfl, fun _ => rfl, fun _ => rfl⟩

/-- Raw types that agree have the same name. -/
theorem RawType.Alike.name_eq {left right : RawType} (alike : left.Alike right) :
    left.name = right.name := by
  rw [RawType.eq_of_parts alike.element_eq alike.dimensions_eq]

namespace Registry

variable {registry : Registry} {raw left right : RawType}

/-- Whether a raw type has been obtained from a registry, by calls in any order and number. -/
inductive Obtains : Registry → RawType → Prop
  /-- By a look-up. -/
  | lookup {registry : Registry} {name : String} {raw : RawType}
      (found : (registry.lookup name).1 = .ok raw) : Obtains registry raw
  /-- As the type that was defined. -/
  | define {registry : Registry} {definition : Definition} {declaration : Declaration}
      (accepted : (registry.define definition).1 = .ok declaration) :
      Obtains (registry.define definition).2 (.ofDeclaration declaration)
  /-- As the root. -/
  | top (registry : Registry) : Obtains registry registry.top
  /-- As an array of another one. -/
  | arrayOf {registry : Registry} {raw : RawType} (obtained : Obtains registry raw)
      (dimensions : Nat) : Obtains registry (raw.arrayOf dimensions)
  /-- As the element of another one. -/
  | arrayBase {registry : Registry} {raw : RawType} (obtained : Obtains registry raw) :
      Obtains registry (.ofDeclaration raw.element)
  /-- As a direct supertype of another one. -/
  | parent {registry : Registry} {raw upper : RawType} (obtained : Obtains registry raw)
      (above : upper ∈ raw.parents) : Obtains registry upper
  /-- Inside a generic supertype of another one. -/
  | inSupertype {registry : Registry} {raw inner : RawType} {supertype : Supertype} {part : TypeUse}
      (obtained : Obtains registry raw) (above : supertype ∈ raw.supertypes)
      (inside : part ∈ supertype.toUse.parts) (built : part.raw? = some inner) :
      Obtains registry inner
  /-- In a descriptor that was read, with any options. -/
  | read {registry : Registry} {options : ReadOptions} {here : Address} {text : String}
      {descriptors : List Descriptor} {descriptor node : Descriptor}
      (read : Descriptor.readAll registry.scope options here text = .ok descriptors)
      (mem : descriptor ∈ descriptors) (inside : node ∈ descriptor.nodes) :
      Obtains registry node.raw
  /-- In a descriptor that was converted, from a use of raw types that had been obtained. -/
  | convert {registry : Registry} {bindings : Bindings} {here : Address} {use : TypeUse}
      {descriptor node : Descriptor}
      (uses : ∀ part ∈ use.parts, ∀ raw, part.raw? = some raw → Obtains registry raw)
      (bound : ∀ name argument, bindings.find? name = some argument →
        ∀ node ∈ argument.nodes, Obtains registry node.raw)
      (converted : Conversion.convert ⟨registry.scope, bindings⟩ here use = .ok descriptor)
      (inside : node ∈ descriptor.nodes) : Obtains registry node.raw
  /-- From the registry as it was before further calls. -/
  | earlier {before after : Registry} {raw : RawType} (reached : ReachableFrom standard before)
      (obtained : Obtains before raw) (calls : ReachableFrom before after) : Obtains after raw

/-- What has been obtained from a registry has a declared element. -/
theorem Obtains.element_mem (obtained : registry.Obtains raw)
    (reached : ReachableFrom standard registry) : raw.element ∈ registry.declared := by
  induction obtained with
  | lookup found => exact reached.populated.element_mem_of_find found
  | @define registry definition declaration accepted =>
    rw [define_fst] at accepted
    rw [declared_define, accepted]
    exact List.mem_cons_self
  | top registry => exact reached.populated.top_mem
  | arrayOf obtained dimensions ih =>
    rw [RawType.element_arrayOf]
    exact ih reached
  | arrayBase obtained ih => exact ih reached
  | parent obtained above ih =>
    obtain ⟨parent, isParent, rfl⟩ := mem_parents_cases above
    exact reached.populated.parent_mem _ (ih reached) parent isParent
  | inSupertype obtained above inside built ih =>
    exact reached.isReachable.resolved.element_mem_of_supertypes (ih reached) _ above _ inside _
      built
  | @read registry options here text descriptors descriptor node read mem inside =>
    obtain ⟨index, found⟩ := List.getElem?_of_mem mem
    have declared : ∀ {name raw}, registry.scope.find name = .ok raw →
        raw.element ∈ registry.declared := reached.populated.element_mem_of_find
    have grown := Descriptor.grownBelow_of_readAll declared read index descriptor found
    -- reading attaches no descriptor that was there before
    rcases grown.node_cases node inside with ⟨known, none, -⟩ | ⟨declared, -⟩
    · exact none.elim
    · exact declared
  | @convert registry bindings here use descriptor node uses bound converted inside known stand =>
    have draws : Conversion.DrawsFrom (fun raw => raw.element ∈ registry.declared)
        (fun _ => True) ⟨registry.scope, bindings⟩ :=
      ⟨reached.populated.element_mem_of_find, reached.populated.top_mem,
        fun stands node mem => ⟨stand _ _ stands node mem reached, fun _ => trivial⟩⟩
    have made := draws.madeOf_of_resolve
      (fun part mem raw built => known part mem raw built reached)
      (Conversion.resolve_of_convert converted)
    exact (made node inside).1
  | earlier before obtained calls ih => exact calls.mem_declared (ih before)

/-- **Raw types with the same name agree in everything.** Take any two raw types that have been
obtained, in whatever ways and after whatever calls, from a registry that calls lead to from the
standard one. They have the same name exactly if they agree in their element and dimensions, their
parameters and generic supertypes, in whether they are the root, in their level, and in what they
accept and are accepted by. -/
theorem ReachableFrom.name_eq_iff_alike (reached : ReachableFrom standard registry)
    (leftObtained : registry.Obtains left) (rightObtained : registry.Obtains right) :
    left.name = right.name ↔ left.Alike right := by
  constructor
  · intro same
    have equal := reached.populated.eq_of_name_eq (leftObtained.element_mem reached)
      (rightObtained.element_mem reached) same
    rw [equal]
    exact .refl right
  · exact RawType.Alike.name_eq

/-- In the standard registry the array type that is looked up agrees with the one that is wrapped
around the number type in two steps, and with the element of neither. -/
theorem ReachableFrom.name_eq_iff_alike_arrayOfInts :
    let int := RawType.ofDeclaration (.primitive .int)
    let found : RawType := ⟨.primitive .int, 2⟩
    let wrapped := (int.arrayOf 1).arrayOf 1
    ReachableFrom standard standard
      ∧ (standard.lookup "[[I").1 = .ok found ∧ standard.Obtains found
      ∧ (standard.lookup "int").1 = .ok int ∧ standard.Obtains wrapped ∧ standard.Obtains int
      ∧ found.name = wrapped.name ∧ found.Alike wrapped ∧ ¬ found.Alike int := by
  intro int found wrapped
  have reached : ReachableFrom standard standard := .start
  have lookedUp : (standard.lookup "[[I").1 = .ok found :=
    populated_standard.find_name_arrayOf_of_isReadable (populated_standard.primitive_mem .int)
      ⟨.int, rfl, nofun⟩ (Nat.succ_ne_zero 1)
  have element : (standard.lookup "int").1 = .ok int := populated_standard.find_primitive .int
  have foundObtained : standard.Obtains found := .lookup lookedUp
  have intObtained : standard.Obtains int := .lookup element
  have wrappedObtained : standard.Obtains wrapped := (intObtained.arrayOf 1).arrayOf 1
  have names : found.name = wrapped.name := by decide
  refine ⟨reached, lookedUp, foundObtained, element, wrappedObtained, intObtained, names,
    ?_, ?_⟩
  · exact (reached.name_eq_iff_alike foundObtained wrappedObtained).1 names
  · rw [← reached.name_eq_iff_alike foundObtained intObtained]
    decide

end Registry

end GenericTypes
