import GenericTypes.Proofs.Descriptor.Conversion
import GenericTypes.Proofs.Registry.ArrayLookup

/-! # Substitution and binding

A type parameter can be given a meaning in two ways: by a binding to the descriptor of a use, or by
the use itself in its place. Both give equal descriptors. What has to be seen is that arrays around
the parameter and arrays in the use come to the same layers, although the first way looks up the
inner array by its name before it looks up the outer one: names tell the raw types of a registry
apart, so what is found under the name of an array is this array. -/

namespace GenericTypes

namespace TypeUse

/-- A use with another one in place of a type parameter, at every depth. -/
def substitute (use : TypeUse) (name : String) (replacement : TypeUse) : TypeUse :=
  match use with
  | parameter other bounds =>
    if other = name then replacement
    else parameter other (bounds.map fun bound => bound.substitute name replacement)
  | parameterized raw arguments =>
    parameterized raw (arguments.map fun argument => argument.substitute name replacement)
  | array component => array (component.substitute name replacement)
  | wildcard upper lower =>
    wildcard (upper.map fun bound => bound.substitute name replacement)
      (lower.map fun bound => bound.substitute name replacement)
  | use => use

/-- A substitution replaces type parameters and nothing else. -/
theorem isSubstitution_substitute (name : String) (replacement : TypeUse) :
    IsSubstitution fun use => use.substitute name replacement where
  plain := fun raw => by simp only [substitute]
  named := fun name => by simp only [substitute]
  parameterized := fun raw arguments => by rw [substitute]
  array := fun component => by rw [substitute]
  wildcard := fun upper lower => by rw [substitute]
  unnameable := fun description => by simp only [substitute]

/-- What holds of all parts of a use holds of all parts of what is inside its arrays. -/
theorem forall_parts_arrayBase {P : TypeUse → Prop} {use : TypeUse}
    (holds : ∀ part ∈ use.parts, P part) : ∀ part ∈ use.arrayBase.parts, P part := by
  induction use using inductionOnComponents with
  | step use ih =>
    cases use with
    | array component =>
      have inside := (forall_parts_iff.1 holds).2
      exact ih component List.mem_cons_self (inside component List.mem_cons_self)
    | _ => exact holds

end TypeUse

namespace Conversion

open Descriptor (unplaced)

/-! ## Layers of arrays -/

/-- A use is converted by converting what is inside its arrays and wrapping the result into all
layers at once. -/
theorem resolve_eq_bind (conversion : Conversion) (here : Address) (layers : Nat) (use : TypeUse) :
    conversion.resolve here layers use
      = conversion.resolve here 0 use.arrayBase
        >>= conversion.wrapSome here (layers + use.arrayDimensions) := by
  induction use using TypeUse.inductionOnComponents generalizing layers with
  | step use ih =>
    cases use with
    | plain raw =>
      simp only [TypeUse.arrayBase, resolve]
      rfl
    | named name =>
      simp only [TypeUse.arrayBase, resolve]
      cases conversion.find name <;> rfl
    | parameterized raw arguments =>
      simp only [TypeUse.arrayBase, resolve]
      cases conversion.resolveArguments here 0 arguments <;> rfl
    | array component =>
      rw [TypeUse.arrayBase, TypeUse.arrayDimensions, resolve, ih component List.mem_cons_self,
        Nat.add_assoc, Nat.add_comm 1]
    | parameter name bounds =>
      simp only [TypeUse.arrayBase, resolve]
      rfl
    | wildcard upper lower =>
      cases upper with
      | nil =>
        simp only [TypeUse.arrayBase, resolve]
        rfl
      | cons bound upper =>
        simp only [TypeUse.arrayBase, resolve]
        rcases conversion.resolve here 0 bound with cause | component
        · rfl
        · cases component <;> rfl
    | unnameable description =>
      simp only [TypeUse.arrayBase, resolve]
      rfl

/-- What a use is converted to is a component, wrapped into all layers. -/
theorem exists_wrap_of_resolve {conversion : Conversion} {here : Address} {use : TypeUse}
    {layers : Nat} {descriptor : Descriptor}
    (resolved : conversion.resolve here layers use = .ok (some descriptor)) :
    ∃ component, conversion.resolve here 0 use.arrayBase = .ok (some component)
      ∧ conversion.wrap here component (layers + use.arrayDimensions) = .ok descriptor := by
  rw [resolve_eq_bind] at resolved
  obtain ⟨component, base, wrapped⟩ := ok_of_bind_eq_ok resolved
  cases component with
  | none => cases wrapped
  | some component => exact ⟨component, base, wrap_of_wrapSome wrapped⟩

section Populated

variable {registry : Registry} (populated : registry.Populated) {bindings : Bindings}
include populated

/-- What a component is wrapped into is an array of it: what is found under the name of the array is
this array. -/
theorem raw_of_wrap {component inner : Descriptor}
    (mem : component.raw.element ∈ registry.declared) {origin : Address} {dimensions : Nat}
    (wrapped : wrap ⟨registry.scope, bindings⟩ origin component dimensions = .ok inner) :
    inner.raw = component.raw.arrayOf dimensions := by
  cases dimensions with
  | zero =>
    cases wrapped
    rw [RawType.arrayOf_zero]
  | succ dimensions =>
    rw [wrap] at wrapped
    obtain ⟨raw, found, wrapped⟩ := ok_of_bind_eq_ok wrapped
    cases wrapped
    have answer : registry.find (component.raw.arrayOf (dimensions + 1)).name = .ok raw :=
      answer_of_find found
    refine populated.eq_of_name_eq (populated.element_mem_of_find answer) ?_
      (populated.name_of_find answer)
    rwa [RawType.element_arrayOf]

/-- To wrap a component into arrays twice is to wrap it once into the layers of both times. -/
theorem map_wrap_wrap {component inner : Descriptor}
    (mem : component.raw.element ∈ registry.declared) {origin : Address} {dimensions : Nat}
    (wrapped : wrap ⟨registry.scope, bindings⟩ origin component dimensions = .ok inner)
    (here there : Address) (layers : Nat) :
    (wrap ⟨registry.scope, bindings⟩ here inner layers).map unplaced
      = (wrap ⟨registry.scope, bindings⟩ there component (dimensions + layers)).map unplaced := by
  have array := raw_of_wrap populated mem wrapped
  cases dimensions with
  | zero =>
    cases wrapped
    rw [Nat.zero_add]
    exact map_wrap_congr rfl here there layers
  | succ dimensions =>
    rw [wrap] at wrapped
    obtain ⟨raw, found, wrapped⟩ := ok_of_bind_eq_ok wrapped
    cases wrapped
    obtain rfl : raw = component.raw.arrayOf (dimensions + 1) := array
    cases layers with
    | zero =>
      rw [Nat.add_zero, wrap, wrap, found]
      exact congrArg Except.ok (Descriptor.unplaced_eq_of_parts rfl rfl rfl rfl)
    | succ layers =>
      rw [← Nat.add_assoc, wrap, wrap, RawType.arrayOf_arrayOf, ← Nat.add_assoc]
      refine map_bind_congr (f := id) rfl ?_
      rintro raw _ rfl
      exact congrArg Except.ok (Descriptor.unplaced_eq_of_parts rfl rfl rfl rfl)

/-- A type parameter that is bound to the descriptor of a use is converted like the use. -/
theorem map_resolve_bind {replacement : TypeUse} {origin : Address} {descriptor : Descriptor}
    (draws : DrawsFrom (fun raw => raw.element ∈ registry.declared) (fun _ => True)
      ⟨registry.scope, bindings⟩)
    (known : ∀ part ∈ replacement.parts, ∀ raw, part.raw? = some raw →
      raw.element ∈ registry.declared)
    (converted : convert ⟨registry.scope, bindings⟩ origin replacement = .ok descriptor)
    (name : String) (bounds : List TypeUse) (here there : Address) (layers : Nat) :
    (resolve ⟨registry.scope, bindings.bind name descriptor⟩ here layers
        (.parameter name bounds)).map (Option.map unplaced)
      = (resolve ⟨registry.scope, bindings⟩ there layers replacement).map
        (Option.map unplaced) := by
  let conversion : Conversion := ⟨registry.scope, bindings⟩
  -- the use is converted by wrapping a component into its own layers
  obtain ⟨component, base, wrapped⟩ := exists_wrap_of_resolve (resolve_of_convert converted)
  rw [Nat.zero_add] at wrapped
  have mem := (Descriptor.madeOf_iff.1
    (draws.madeOf_of_resolve (TypeUse.forall_parts_arrayBase known) base)).1.1
  have same : (resolve conversion origin 0 replacement.arrayBase).map (Option.map unplaced)
      = (resolve conversion there 0 replacement.arrayBase).map (Option.map unplaced) :=
    map_resolve_congr TypeUse.isSubstitution_id
      (fun name bounds => map_resolve_parameter_congr rfl bounds bounds) _ origin there 0
  rw [resolve_eq_bind conversion there, resolve, Bindings.find?_bind_self, Option.getD_some]
  calc (wrapSome ⟨registry.scope, bindings.bind name descriptor⟩ here layers
        (some descriptor)).map (Option.map unplaced)
      = (conversion.wrapSome here layers (some descriptor)).map (Option.map unplaced) :=
        map_wrapSome_congr rfl here here layers
    _ = (conversion.wrapSome there (layers + replacement.arrayDimensions)
        (some component)).map (Option.map unplaced) := by
      rw [map_wrapSome_some, map_wrapSome_some, Nat.add_comm,
        map_wrap_wrap populated mem wrapped here there layers]
    _ = (conversion.resolve origin 0 replacement.arrayBase
        >>= conversion.wrapSome there (layers + replacement.arrayDimensions)).map
          (Option.map unplaced) := by
      rw [base]
      rfl
    _ = (conversion.resolve there 0 replacement.arrayBase
        >>= conversion.wrapSome there (layers + replacement.arrayDimensions)).map
          (Option.map unplaced) :=
      map_bind_congr same fun _ _ equal => map_wrapSome_congr equal there there _

/-- To bind a type parameter to the descriptor of a use is to put the use in its place, whatever is
converted and inside any arrays. -/
theorem map_resolve_bind_eq_substitute {replacement : TypeUse} {origin : Address}
    {descriptor : Descriptor}
    (draws : DrawsFrom (fun raw => raw.element ∈ registry.declared) (fun _ => True)
      ⟨registry.scope, bindings⟩)
    (known : ∀ part ∈ replacement.parts, ∀ raw, part.raw? = some raw →
      raw.element ∈ registry.declared)
    (converted : convert ⟨registry.scope, bindings⟩ origin replacement = .ok descriptor)
    (name : String) (use : TypeUse) (here there : Address) (layers : Nat) :
    (resolve ⟨registry.scope, bindings.bind name descriptor⟩ here layers use).map
        (Option.map unplaced)
      = (resolve ⟨registry.scope, bindings⟩ there layers (use.substitute name replacement)).map
        (Option.map unplaced) := by
  refine map_resolve_congr (TypeUse.isSubstitution_substitute name replacement) ?_ use here there
    layers
  intro other bounds here there layers
  rw [TypeUse.substitute]
  split
  · rename_i same
    rw [same]
    exact map_resolve_bind populated draws known converted name bounds here there layers
  · -- another type parameter stands for the same descriptor as before
    rename_i different
    have stands : ((bindings.bind name descriptor).find? other).map unplaced
        = (bindings.find? other).map unplaced := by
      rw [Bindings.find?_bind_of_ne different]
    exact map_resolve_parameter_congr stands bounds _ here there layers

end Populated

/-- Uses that are converted alike inside no arrays have equal descriptors, or both have none. -/
theorem convert_cases {left right : Conversion} {use other : TypeUse} {here there : Address}
    (same : (left.resolve here 0 use).map (Option.map unplaced)
      = (right.resolve there 0 other).map (Option.map unplaced)) :
    (∃ first second, left.convert here use = .ok first ∧ right.convert there other = .ok second
        ∧ (first == second) = true)
      ∨ ∃ cause fault, left.convert here use = .error cause
        ∧ right.convert there other = .error fault := by
  rw [convert, convert]
  obtain ⟨cause, first, second⟩ | ⟨value, result, first, second, equal⟩ := map_eq_map_cases same
  · rw [first, second]
    exact .inr ⟨cause, cause, rfl, rfl⟩
  · rw [first, second]
    obtain ⟨rfl, rfl⟩ | ⟨left, right, rfl, rfl, same⟩ := optionMap_eq_cases equal
    · exact .inr ⟨_, _, rfl, rfl⟩
    · exact .inl ⟨left, right, rfl, rfl, Descriptor.equal_of_unplaced_eq same⟩

/-- A type parameter inside one array is converted to the array of what it stands for, if that is
found under its name. -/
theorem convert_array_parameter (conversion : Conversion) {here : Address} {name : String}
    {bounds : List TypeUse} {component : Descriptor} {array : RawType}
    (stands : conversion.bindings.find? name = some component)
    (found : conversion.scope.find (component.raw.arrayOf 1).name = .ok array) :
    conversion.convert here (.array (.parameter name bounds))
      = .ok ⟨here, array, component.arguments, false⟩ := by
  rw [convert, resolve, resolve, stands, Option.getD_some, wrapSome, wrap, find, found]
  rfl

end Conversion

namespace Registry

/-- **Binding a type parameter to a descriptor is substituting the use it comes from.** In a
registry that calls lead to from the standard one, let the raw types of a use and those in what type
parameters stand for be raw types of the registry, and let the use be converted to a descriptor.
Converting any use with a type parameter bound to this descriptor, and converting the use with the
first use in place of the type parameter, give equal descriptors or both fail. -/
theorem ReachableFrom.convert_bind_or_substitute {registry : Registry}
    (reached : ReachableFrom standard registry) {bindings : Bindings}
    (bound : ∀ name descriptor, bindings.find? name = some descriptor →
      ∀ node ∈ descriptor.nodes, registry.IsHandle node.raw)
    {replacement : TypeUse}
    (known : ∀ part ∈ replacement.parts, ∀ raw, part.raw? = some raw → registry.IsHandle raw)
    {origin : Address} {descriptor : Descriptor}
    (converted : Conversion.convert ⟨registry.scope, bindings⟩ origin replacement = .ok descriptor)
    (name : String) (use : TypeUse) (here there : Address) :
    let left := Conversion.convert ⟨registry.scope, bindings.bind name descriptor⟩ here use
    let right := Conversion.convert ⟨registry.scope, bindings⟩ there
      (use.substitute name replacement)
    (∃ bound substituted, left = .ok bound ∧ right = .ok substituted
        ∧ (bound == substituted) = true)
      ∨ ∃ cause fault, left = .error cause ∧ right = .error fault := by
  have populated := reached.populated
  have isHandle_iff : ∀ raw, registry.IsHandle raw ↔ raw.element ∈ registry.declared :=
    fun raw => populated.isHandle_iff
  have draws : Conversion.DrawsFrom (fun raw => raw.element ∈ registry.declared) (fun _ => True)
      ⟨registry.scope, bindings⟩ := by
    refine ⟨populated.element_mem_of_find, populated.top_mem, ?_⟩
    intro other meaning stands node mem
    exact ⟨(isHandle_iff _).1 (bound other meaning stands node mem), fun _ => trivial⟩
  have declared : ∀ part ∈ replacement.parts, ∀ raw, part.raw? = some raw →
      raw.element ∈ registry.declared :=
    fun part mem raw base => (isHandle_iff raw).1 (known part mem raw base)
  exact Conversion.convert_cases (Conversion.map_resolve_bind_eq_substitute populated draws
    declared converted name use here there 0)

/-- In the standard registry arrays of arrays of numbers can be written in both ways, also with the
type parameter inside the use that it is bound to the descriptor of. -/
theorem ReachableFrom.convert_bind_or_substitute_arrayOfInts :
    let int : Bindings := [("T", .leaf ⟨0, []⟩ (.ofDeclaration (.primitive .int)))]
    let array := TypeUse.array (.parameter "T" [])
    let ints : Descriptor := ⟨⟨1, []⟩, ⟨.primitive .int, 1⟩, [], false⟩
    ReachableFrom standard standard
      ∧ (∀ name descriptor, int.find? name = some descriptor →
        ∀ node ∈ descriptor.nodes, standard.IsHandle node.raw)
      ∧ (∀ part ∈ array.parts, ∀ raw, part.raw? = some raw → standard.IsHandle raw)
      ∧ Conversion.convert ⟨standard.scope, int⟩ ⟨1, []⟩ array = .ok ints
      ∧ ∃ substituted, Conversion.convert ⟨standard.scope, int⟩ ⟨3, []⟩ (array.substitute "T" array)
          = .ok substituted
        ∧ ((⟨⟨2, []⟩, ⟨.primitive .int, 2⟩, [], false⟩ : Descriptor) == substituted) = true := by
  intro int array ints
  have mem := populated_standard.primitive_mem .int
  have found : ∀ dimensions, dimensions ≠ 0 →
      standard.find (((RawType.ofDeclaration (.primitive .int)).arrayOf dimensions).name)
        = .ok ((RawType.ofDeclaration (.primitive .int)).arrayOf dimensions) := by
    intro dimensions positive
    have noBracket : '[' ∉ (Declaration.primitive .int).name.toList := bracket_notMem_name .int
    have answer := populated_standard.find_name_arrayOf mem nofun positive
    rwa [if_neg noBracket] at answer
  have bound : ∀ name descriptor, int.find? name = some descriptor →
      ∀ node ∈ descriptor.nodes, standard.IsHandle node.raw := by
    intro name descriptor stands
    cases List.mem_singleton.1 (Bindings.mem_of_find? stands)
    have isHandle : standard.IsHandle (.ofDeclaration (.primitive .int)) :=
      populated_standard.isHandle_iff.2 mem
    exact Descriptor.forall_nodes_iff.2 ⟨isHandle, nofun⟩
  have known : ∀ part ∈ array.parts, ∀ raw, part.raw? = some raw → standard.IsHandle raw := by
    refine TypeUse.forall_parts_iff.2 ⟨nofun, List.forall_mem_singleton.2 ?_⟩
    exact TypeUse.forall_parts_iff.2 ⟨nofun, nofun⟩
  have converted : Conversion.convert ⟨standard.scope, int⟩ ⟨1, []⟩ array = .ok ints := by
    have stands : int.find? "T" = some (.leaf ⟨0, []⟩ (.ofDeclaration (.primitive .int))) := rfl
    exact Conversion.convert_array_parameter ⟨_, int⟩ stands (found 1 Nat.one_ne_zero)
  refine ⟨.start, bound, known, converted, ?_⟩
  have twice : Conversion.convert ⟨standard.scope, int.bind "T" ints⟩ ⟨2, []⟩ array
      = .ok ⟨⟨2, []⟩, ⟨.primitive .int, 2⟩, [], false⟩ :=
    Conversion.convert_array_parameter ⟨_, int.bind "T" ints⟩ (int.find?_bind_self "T" ints)
      (found 2 (Nat.succ_ne_zero 1))
  rcases ReachableFrom.start.convert_bind_or_substitute bound known converted "T" array ⟨2, []⟩
    ⟨3, []⟩ with ⟨left, right, leftEq, rightEq, equal⟩ | ⟨cause, fault, failed, -⟩
  · rw [twice] at leftEq
    cases leftEq
    exact ⟨right, rightEq, equal⟩
  · rw [twice] at failed
    cases failed

end Registry

end GenericTypes
