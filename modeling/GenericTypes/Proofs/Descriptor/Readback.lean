import Mathlib.Logic.Relation
import GenericTypes.Proofs.Descriptor.Substitution

/-! # Reading back what was converted

A conversion makes new nodes and new raw types: arrays of what it has converted, the root, and what
names stand for. All of them are looked up under their names, and so nothing gets into a result that
cannot be found there again. The canonical text of a result can therefore always be read back. The
price is that some uses are not converted at all: those in which the conversion comes to an array of
a component that array names cannot refer to, such as `void`. -/

namespace GenericTypes

namespace TypeUse

/-- Whether a use stands for a type. What cannot be named does not, nor do arrays of it and
wildcards that are bounded by it. -/
def isNameable : TypeUse → Bool
  | unnameable _ => false
  | array component => component.isNameable
  | wildcard (bound :: _) _ => bound.isNameable
  | _ => true

/-- The uses directly inside a use that its conversion comes to: the arguments in front of the first
one that cannot be named, the component of an array, and the first upper bound of a wildcard. -/
def successors : TypeUse → List TypeUse
  | parameterized _ arguments => arguments.takeWhile isNameable
  | array component => [component]
  | wildcard (bound :: _) _ => [bound]
  | _ => []

/-- Whether the conversion of a use comes to another one. -/
def ComesTo : TypeUse → TypeUse → Prop :=
  Relation.ReflTransGen fun outer inner => inner ∈ outer.successors

/-- What a conversion comes to directly stands directly inside. -/
theorem mem_components_of_mem_successors {use inner : TypeUse} (mem : inner ∈ use.successors) :
    inner ∈ use.components := by
  cases use with
  | parameterized raw arguments => exact (List.takeWhile_sublist isNameable).subset mem
  | array component => exact mem
  | wildcard upper lower =>
    cases upper with
    | nil => cases mem
    | cons bound upper =>
      cases List.mem_singleton.1 mem
      exact List.mem_cons_self
  | _ => cases mem

/-- What holds of all parts of a use holds of all parts of what its conversion comes to. -/
theorem forall_parts_of_comesTo {P : TypeUse → Prop} {use inner : TypeUse}
    (comes : use.ComesTo inner) (holds : ∀ part ∈ use.parts, P part) :
    ∀ part ∈ inner.parts, P part := by
  induction comes with
  | refl => exact holds
  | tail _ step ih => exact (forall_parts_iff.1 ih).2 _ (mem_components_of_mem_successors step)

end TypeUse

/-! ## Arrays that are found -/

namespace Registry

/-- How an array of `void` would be called. -/
theorem name_arrayOf_void :
    ((RawType.ofDeclaration (.primitive .void)).arrayOf 1).name = "[V" := by decide

/-- Array names cannot refer to `void`. -/
theorem not_isReadable_arrayElement_void :
    ¬ (Declaration.primitive .void).arrayElement.IsReadable := by
  rintro ⟨type, code, notVoid⟩
  exact ArrayElement.code_ne_of_ne_void notVoid code

namespace Populated

variable {registry : Registry} (populated : registry.Populated) {raw : RawType}
include populated

/-- Array names can refer to the element of an array that is found under its name. -/
theorem isReadable_of_find {array : RawType} {layers : Nat}
    (found : registry.find (raw.arrayOf (layers + 1)).name = .ok array) :
    raw.element.arrayElement.IsReadable := by
  apply Classical.byContradiction
  intro unreadable
  have missing := populated.find_name_arrayOf_of_not_isReadable unreadable
    (Nat.succ_ne_zero (raw.dimensions + layers))
  rw [Nat.succ_eq_add_one, Nat.add_assoc, ← RawType.arrayOf_arrayOf,
    RawType.arrayOf_ofDeclaration_element, found] at missing
  cases missing

/-- An array is found under its name if array names can refer to its element. -/
theorem find_arrayOf_of_isReadable (mem : raw.element ∈ registry.declared)
    (readable : raw.element.arrayElement.IsReadable) (layers : Nat) :
    registry.find (raw.arrayOf (layers + 1)).name = .ok (raw.arrayOf (layers + 1)) := by
  have found := populated.find_name_arrayOf_of_isReadable mem readable
    (Nat.succ_ne_zero (raw.dimensions + layers))
  rwa [Nat.succ_eq_add_one, Nat.add_assoc, ← RawType.arrayOf_arrayOf,
    RawType.arrayOf_ofDeclaration_element] at found

end Populated

end Registry

namespace Conversion

variable {conversion : Conversion} {use : TypeUse} {here : Address} {layers : Nat}

/-! ## What a conversion comes to -/

/-- There is something in arrays when there is a component. -/
theorem isSome_of_wrapSome {component result : Option Descriptor}
    (wrapped : conversion.wrapSome here layers component = .ok result) :
    result.isSome = component.isSome := by
  cases component with
  | none =>
    cases wrapped
    rfl
  | some component =>
    rw [wrapSome] at wrapped
    cases outcome : conversion.wrap here component layers with
    | error cause =>
      rw [outcome] at wrapped
      cases wrapped
    | ok descriptor =>
      rw [outcome] at wrapped
      cases wrapped
      rfl

/-- There is a result when a use stands for a type. -/
theorem isSome_of_resolve {result : Option Descriptor}
    (resolved : conversion.resolve here layers use = .ok result) :
    result.isSome = use.isNameable := by
  induction use using TypeUse.inductionOnComponents generalizing here layers result with
  | step use ih =>
    cases use with
    | plain raw =>
      rw [resolve] at resolved
      exact isSome_of_wrapSome resolved
    | named name =>
      rw [resolve] at resolved
      obtain ⟨raw, -, resolved⟩ := ok_of_bind_eq_ok resolved
      exact isSome_of_wrapSome resolved
    | parameterized raw arguments =>
      rw [resolve] at resolved
      obtain ⟨descriptors, -, resolved⟩ := ok_of_bind_eq_ok resolved
      exact isSome_of_wrapSome resolved
    | array component =>
      rw [resolve] at resolved
      exact ih component List.mem_cons_self resolved
    | parameter name bounds =>
      rw [resolve] at resolved
      exact isSome_of_wrapSome resolved
    | wildcard upper lower =>
      cases upper with
      | nil =>
        rw [resolve] at resolved
        exact isSome_of_wrapSome resolved
      | cons bound upper =>
        rw [resolve] at resolved
        obtain ⟨component, converted, resolved⟩ := ok_of_bind_eq_ok resolved
        exact (isSome_of_wrapSome resolved).trans (ih bound List.mem_cons_self converted)
    | unnameable description =>
      rw [resolve] at resolved
      cases resolved
      rfl

/-- All arguments up to the first one that cannot be named have been converted. -/
theorem exists_of_resolveArguments {arguments : List TypeUse} {index : Nat}
    {descriptors : List Descriptor}
    (resolved : conversion.resolveArguments here index arguments = .ok descriptors) :
    ∀ argument ∈ arguments.takeWhile TypeUse.isNameable, ∃ there descriptor,
      conversion.resolve there 0 argument = .ok (some descriptor) := by
  induction arguments generalizing index descriptors with
  | nil =>
    intro argument mem
    cases mem
  | cons argument rest ih =>
    rw [resolveArguments] at resolved
    obtain ⟨first, firstEq, resolved⟩ := ok_of_bind_eq_ok resolved
    have isSome := isSome_of_resolve firstEq
    rw [List.takeWhile_cons, ← isSome]
    cases first with
    | none =>
      intro argument mem
      cases mem
    | some first =>
      obtain ⟨others, othersEq, -⟩ := ok_of_bind_eq_ok resolved
      exact List.forall_mem_cons.2 ⟨⟨_, first, firstEq⟩, ih othersEq⟩

/-- When a use is converted, so is everything directly inside it that the conversion comes to. -/
theorem exists_resolve_of_mem_successors {descriptor : Descriptor}
    (resolved : conversion.resolve here layers use = .ok (some descriptor)) :
    ∀ inner ∈ use.successors, ∃ there depth result,
      conversion.resolve there depth inner = .ok (some result) := by
  cases use with
  | parameterized raw arguments =>
    rw [resolve] at resolved
    obtain ⟨descriptors, argumentsEq, -⟩ := ok_of_bind_eq_ok resolved
    intro argument mem
    obtain ⟨there, result, converted⟩ := exists_of_resolveArguments argumentsEq argument mem
    exact ⟨there, 0, result, converted⟩
  | array component =>
    rw [resolve] at resolved
    exact List.forall_mem_singleton.2 ⟨here, layers + 1, descriptor, resolved⟩
  | wildcard upper lower =>
    cases upper with
    | nil =>
      intro inner mem
      cases mem
    | cons bound upper =>
      rw [resolve] at resolved
      obtain ⟨component, converted, resolved⟩ := ok_of_bind_eq_ok resolved
      cases component with
      | none => cases resolved
      | some component => exact List.forall_mem_singleton.2 ⟨here, 0, component, converted⟩
  | _ =>
    intro inner mem
    cases mem

/-- When a use is converted, so is everything that the conversion comes to. -/
theorem exists_resolve_of_comesTo {inner : TypeUse} (comes : use.ComesTo inner)
    {descriptor : Descriptor}
    (resolved : conversion.resolve here layers use = .ok (some descriptor)) :
    ∃ there depth result, conversion.resolve there depth inner = .ok (some result) := by
  induction comes with
  | refl => exact ⟨here, layers, descriptor, resolved⟩
  | tail _ step ih =>
    obtain ⟨there, depth, result, converted⟩ := ih
    exact exists_resolve_of_mem_successors converted _ step

/-! ## Arrays of what was converted -/

section Populated

variable {registry : Registry} (populated : registry.Populated) {bindings : Bindings}
include populated

/-- Array names can refer to the element of what stands in an array that is converted. -/
theorem isReadable_of_resolve_array {component : TypeUse}
    (draws : DrawsFrom registry.Knows (fun _ => True) ⟨registry.scope, bindings⟩)
    (known : ∀ part ∈ component.parts, ∀ raw, part.raw? = some raw → registry.Knows raw)
    {array : Descriptor}
    (resolved : resolve ⟨registry.scope, bindings⟩ here layers (.array component)
      = .ok (some array))
    {there : Address} {inner : Descriptor}
    (converted : convert ⟨registry.scope, bindings⟩ there component = .ok inner) :
    inner.raw.element.arrayElement.IsReadable := by
  rw [resolve] at resolved
  obtain ⟨innermost, base, wrapped⟩ := exists_wrap_of_resolve resolved
  obtain ⟨other, otherBase, otherWrapped⟩ := exists_wrap_of_resolve (resolve_of_convert converted)
  -- both times the innermost component has the same raw type
  have same : (resolve ⟨registry.scope, bindings⟩ here 0 component.arrayBase).map
        (Option.map Descriptor.unplaced)
      = (resolve ⟨registry.scope, bindings⟩ there 0 component.arrayBase).map
        (Option.map Descriptor.unplaced) :=
    map_resolve_congr TypeUse.isSubstitution_id
      (fun name bounds => map_resolve_parameter_congr rfl bounds bounds) _ here there 0
  rw [base, otherBase] at same
  have raws : innermost.raw = other.raw :=
    Descriptor.raw_eq_of_unplaced_eq (Option.some.inj (Except.ok.inj same))
  obtain ⟨name, found⟩ := (Descriptor.madeOf_iff.1
    (draws.madeOf_of_resolve (TypeUse.forall_parts_arrayBase known) otherBase)).1.1
  have mem := populated.element_mem_of_find found
  rw [raw_of_wrap populated mem otherWrapped, RawType.element_arrayOf, ← raws]
  rw [Nat.add_right_comm, wrap] at wrapped
  obtain ⟨raw, found, -⟩ := ok_of_bind_eq_ok wrapped
  have answer : registry.find (innermost.raw.arrayOf _).name = .ok raw := answer_of_find found
  exact populated.isReadable_of_find answer

end Populated

end Conversion

namespace Registry

/-- A conversion draws from a populated registry what can be found there under its own name, if what
type parameters stand for is made of such raw types. -/
theorem Populated.drawsFrom_knows {registry : Registry} (populated : registry.Populated)
    {bindings : Bindings}
    (bound : ∀ name descriptor, bindings.find? name = some descriptor →
      ∀ node ∈ descriptor.nodes, registry.Knows node.raw) :
    Conversion.DrawsFrom registry.Knows (fun _ => True) ⟨registry.scope, bindings⟩ where
  answer := fun found => ⟨_, found⟩
  top := ⟨_, populated.find_name populated.top_mem⟩
  bound := fun stands node mem => ⟨bound _ _ stands node mem, fun _ => trivial⟩

/-- **What is converted can be read back.** The registry is one that calls lead to from the standard
one, and answers all raw types in a use and in what type parameters stand for. When the use is
converted, every raw type in the result is the answer to its own name, and the canonical text of the
result is read as the result without its markers whenever the limit leaves room for it. No array of
a component gets into a result, at any depth, whose name the registry does not know: where the
conversion comes to one, the use is not converted. Arrays of `void` are of this kind. -/
theorem ReachableFrom.readOne_canonical_of_convert {registry : Registry}
    (reached : ReachableFrom standard registry) {bindings : Bindings}
    (bound : ∀ name descriptor, bindings.find? name = some descriptor →
      ∀ node ∈ descriptor.nodes, registry.Knows node.raw)
    {use : TypeUse} (known : ∀ part ∈ use.parts, ∀ raw, part.raw? = some raw → registry.Knows raw)
    (here : Address) :
    (∀ descriptor, Conversion.convert ⟨registry.scope, bindings⟩ here use = .ok descriptor →
      (∀ node ∈ descriptor.nodes, (registry.lookup node.raw.name).1 = .ok node.raw)
        ∧ ∀ (options : ReadOptions) (there : Address), descriptor.depth ≤ options.maxDepth →
          Descriptor.readOne registry.scope options there descriptor.canonical
            = .ok (descriptor.erased (there.child 0)))
    ∧ (∀ component inner there, use.ComesTo (.array component) →
      Conversion.convert ⟨registry.scope, bindings⟩ there component = .ok inner →
      (∀ raw, (registry.lookup (inner.raw.arrayOf 1).name).1 ≠ .ok raw) →
        ∃ cause, Conversion.convert ⟨registry.scope, bindings⟩ here use = .error cause)
    ∧ (registry.lookup "[V").1 = .error (.typeNotFound "[V") := by
  have populated := reached.populated
  have draws := populated.drawsFrom_knows bound
  refine ⟨?_, ?_, ?_⟩
  · intro descriptor converted
    have made := draws.madeOf_of_resolve known (Conversion.resolve_of_convert converted)
    have found : ∀ node ∈ descriptor.nodes, registry.find node.raw.name = .ok node.raw :=
      fun node mem => populated.find_name_of_knows (made node mem).1
    exact ⟨found, fun options there room =>
      Descriptor.readOne_canonical populated.isReadable_scope found room⟩
  · intro component inner there comes converted missing
    cases outcome : Conversion.convert ⟨registry.scope, bindings⟩ here use with
    | error cause => exact ⟨cause, rfl⟩
    | ok descriptor =>
      -- the conversion has come through the array, so the array of the component is found
      obtain ⟨place, layers, array, resolved⟩ :=
        Conversion.exists_resolve_of_comesTo comes (Conversion.resolve_of_convert outcome)
      have inside := (TypeUse.forall_parts_iff.1
        (TypeUse.forall_parts_of_comesTo comes known)).2 component List.mem_cons_self
      have readable := Conversion.isReadable_of_resolve_array populated draws inside resolved
        converted
      obtain ⟨name, found⟩ := (Descriptor.madeOf_iff.1
        (draws.madeOf_of_resolve inside (Conversion.resolve_of_convert converted))).1.1
      have mem := populated.element_mem_of_find found
      exact absurd (populated.find_arrayOf_of_isReadable mem readable 0) (missing _)
  · rw [← name_arrayOf_void]
    exact populated.find_name_arrayOf_of_not_isReadable not_isReadable_arrayElement_void
      Nat.one_ne_zero

/-- In the standard registry an array of a type parameter that stands for a marker is converted and
read back, and a use with an array of `void` inside it is not converted. -/
theorem ReachableFrom.readOne_canonical_of_convert_arrays :
    let int : Bindings := [("T", ⟨⟨0, []⟩, .ofDeclaration (.primitive .int), [], true⟩)]
    let ints := TypeUse.array (.parameter "T" [])
    let voids := TypeUse.parameterized (.ofDeclaration (.top standardTop))
      [.array (.plain (.ofDeclaration (.primitive .void)))]
    ReachableFrom standard standard
      ∧ (∀ name descriptor, int.find? name = some descriptor →
        ∀ node ∈ descriptor.nodes, standard.Knows node.raw)
      ∧ (∀ part ∈ ints.parts, ∀ raw, part.raw? = some raw → standard.Knows raw)
      ∧ (∀ part ∈ voids.parts, ∀ raw, part.raw? = some raw → standard.Knows raw)
      ∧ Conversion.convert ⟨standard.scope, int⟩ ⟨1, []⟩ ints
        = .ok ⟨⟨1, []⟩, ⟨.primitive .int, 1⟩, [], false⟩
      ∧ Descriptor.readOne standard.scope ⟨0, false⟩ ⟨2, []⟩ "[I"
        = .ok (.leaf ⟨2, [0]⟩ ⟨.primitive .int, 1⟩)
      ∧ ∃ cause, Conversion.convert ⟨standard.scope, int⟩ ⟨3, []⟩ voids = .error cause := by
  intro int ints voids
  have reached : ReachableFrom standard standard := .start
  have bound : ∀ name descriptor, int.find? name = some descriptor →
      ∀ node ∈ descriptor.nodes, standard.Knows node.raw := by
    intro name descriptor stands
    cases List.mem_singleton.1 (Bindings.mem_of_find? stands)
    exact Descriptor.forall_nodes_iff.2 ⟨⟨_, populated_standard.find_primitive .int⟩, nofun⟩
  have intsKnown : ∀ part ∈ ints.parts, ∀ raw, part.raw? = some raw → standard.Knows raw := by
    refine TypeUse.forall_parts_iff.2 ⟨nofun, List.forall_mem_singleton.2 ?_⟩
    exact TypeUse.forall_parts_iff.2 ⟨nofun, nofun⟩
  have voidsKnown : ∀ part ∈ voids.parts, ∀ raw, part.raw? = some raw → standard.Knows raw := by
    refine TypeUse.forall_parts_iff.2 ⟨?_, List.forall_mem_singleton.2 ?_⟩
    · rintro raw ⟨⟩
      exact ⟨_, populated_standard.find_standardTop⟩
    · refine TypeUse.forall_parts_iff.2 ⟨nofun, List.forall_mem_singleton.2 ?_⟩
      refine TypeUse.forall_parts_iff.2 ⟨?_, nofun⟩
      rintro raw ⟨⟩
      exact ⟨_, populated_standard.find_primitive .void⟩
  have array : standard.find ((RawType.ofDeclaration (.primitive .int)).arrayOf 1).name
      = .ok ⟨.primitive .int, 1⟩ :=
    populated_standard.find_name_arrayOf_of_isReadable (populated_standard.primitive_mem .int)
      ⟨.int, rfl, nofun⟩ Nat.one_ne_zero
  have converted : Conversion.convert ⟨standard.scope, int⟩ ⟨1, []⟩ ints
      = .ok ⟨⟨1, []⟩, ⟨.primitive .int, 1⟩, [], false⟩ := by
    have stands : int.find? "T" = some ⟨⟨0, []⟩, .ofDeclaration (.primitive .int), [], true⟩ := rfl
    exact Conversion.convert_array_parameter ⟨_, int⟩ stands array
  refine ⟨reached, bound, intsKnown, voidsKnown, converted, ?_, ?_⟩
  · have text : Descriptor.canonical ⟨⟨1, []⟩, ⟨.primitive .int, 1⟩, [], false⟩ = "[I" := by
      rw [← String.toList_inj]
      exact (Descriptor.chars_leaf _ _).trans (by decide)
    have read := ((reached.readOne_canonical_of_convert bound intsKnown ⟨1, []⟩).1 _ converted).2
      ⟨0, false⟩ ⟨2, []⟩ (Descriptor.depth_le_iff.2 nofun)
    rw [text] at read
    rw [read]
    rfl
  · obtain ⟨-, fails, void⟩ := reached.readOne_canonical_of_convert bound voidsKnown ⟨3, []⟩
    refine fails (.plain (.ofDeclaration (.primitive .void)))
      (.leaf ⟨0, []⟩ (.ofDeclaration (.primitive .void))) ⟨0, []⟩ ?_ rfl ?_
    · exact .single List.mem_cons_self
    · intro raw found
      rw [← name_arrayOf_void] at void
      cases found.symm.trans void

end Registry

end GenericTypes
