import GenericTypes.Descriptor.Conversion
import GenericTypes.Proofs.Descriptor.Growth
import GenericTypes.Proofs.TypeUse.Parts

/-! # What conversions depend on

A conversion copies raw types and markers and makes new nodes for everything else. The normal form
of its result depends on the use and on the normal forms of what type parameters stand for, and not
on where the result is made. Its raw types are those of the use, those that stand in what type
parameters stand for, and those that the scope answers; its markers are among those of what type
parameters stand for. -/

namespace GenericTypes

/-- Whether a function on uses replaces type parameters and nothing else. -/
structure TypeUse.IsSubstitution (f : TypeUse → TypeUse) : Prop where
  /-- A plain raw type stays. -/
  plain : ∀ raw, f (.plain raw) = .plain raw
  /-- A name stays. -/
  named : ∀ name, f (.named name) = .named name
  /-- The raw type of an application stays. -/
  parameterized : ∀ raw arguments,
    f (.parameterized raw arguments) = .parameterized raw (arguments.map f)
  /-- A layer of arrays stays. -/
  array : ∀ component, f (.array component) = .array (f component)
  /-- A wildcard keeps the number of its bounds. -/
  wildcard : ∀ upper lower, f (.wildcard upper lower) = .wildcard (upper.map f) (lower.map f)
  /-- What cannot be named stays. -/
  unnameable : ∀ description, f (.unnameable description) = .unnameable description

/-- It replaces nothing to keep every use. -/
theorem TypeUse.isSubstitution_id : IsSubstitution id where
  plain := fun _ => rfl
  named := fun _ => rfl
  parameterized := fun raw arguments => by rw [List.map_id, id]
  array := fun _ => rfl
  wildcard := fun upper lower => by rw [List.map_id, List.map_id, id]
  unnameable := fun _ => rfl

namespace Conversion

open Descriptor (unplaced)

/-! ## Normal forms of results -/

section Alike

variable {scope : Scope} {lefts rights : Bindings} {f : TypeUse → TypeUse}

/-- Components with the same normal form are wrapped alike. -/
theorem map_wrap_congr {component other : Descriptor}
    (same : component.unplaced = other.unplaced) (here there : Address) (layers : Nat) :
    (wrap ⟨scope, lefts⟩ here component layers).map unplaced
      = (wrap ⟨scope, rights⟩ there other layers).map unplaced := by
  cases layers with
  | zero => exact congrArg Except.ok same
  | succ layers =>
    have arguments := Descriptor.arguments_eq_of_unplaced_eq same
    rw [wrap, wrap, find, find, Descriptor.raw_eq_of_unplaced_eq same]
    refine map_bind_congr (f := id) rfl ?_
    rintro raw _ rfl
    exact congrArg Except.ok (Descriptor.unplaced_eq_of_parts rfl rfl rfl arguments)

/-- A component that is there is wrapped into something that is there. -/
theorem map_wrapSome_some (conversion : Conversion) (here : Address) (layers : Nat)
    (component : Descriptor) :
    (conversion.wrapSome here layers (some component)).map (Option.map unplaced)
      = ((conversion.wrap here component layers).map unplaced).map some := by
  rw [wrapSome]
  cases conversion.wrap here component layers <;> rfl

/-- What a component that is there is wrapped into. -/
theorem wrap_of_wrapSome {conversion : Conversion} {here : Address} {layers : Nat}
    {component descriptor : Descriptor}
    (wrapped : conversion.wrapSome here layers (some component) = .ok (some descriptor)) :
    conversion.wrap here component layers = .ok descriptor := by
  rw [wrapSome] at wrapped
  cases result : conversion.wrap here component layers with
  | error cause =>
    rw [result] at wrapped
    cases wrapped
  | ok other =>
    rw [result] at wrapped
    cases wrapped
    rfl

/-- What may be a component is wrapped alike. -/
theorem map_wrapSome_congr {component other : Option Descriptor}
    (same : component.map unplaced = other.map unplaced) (here there : Address) (layers : Nat) :
    (wrapSome ⟨scope, lefts⟩ here layers component).map (Option.map unplaced)
      = (wrapSome ⟨scope, rights⟩ there layers other).map (Option.map unplaced) := by
  obtain ⟨rfl, rfl⟩ | ⟨inner, outer, rfl, rfl, equal⟩ := optionMap_eq_cases same
  · rfl
  · rw [map_wrapSome_some, map_wrapSome_some, map_wrap_congr equal here there layers]

/-- Arguments are converted alike if each of them is. -/
theorem map_resolveArguments_congr {arguments : List TypeUse}
    (alike : ∀ argument ∈ arguments, ∀ here there,
      (resolve ⟨scope, lefts⟩ here 0 argument).map (Option.map unplaced)
        = (resolve ⟨scope, rights⟩ there 0 (f argument)).map (Option.map unplaced))
    (here there : Address) (i j : Nat) :
    (resolveArguments ⟨scope, lefts⟩ here i arguments).map (List.map unplaced)
      = (resolveArguments ⟨scope, rights⟩ there j (arguments.map f)).map (List.map unplaced) := by
  induction arguments generalizing i j with
  | nil => rfl
  | cons argument rest ih =>
    rw [List.forall_mem_cons] at alike
    rw [List.map_cons, resolveArguments, resolveArguments]
    refine map_bind_congr (alike.1 (here.child i) (there.child j)) ?_
    intro first second same
    -- both lists end here, or they go on with descriptors of the same normal form
    obtain ⟨rfl, rfl⟩ | ⟨left, right, rfl, rfl, equal⟩ := optionMap_eq_cases same
    · rfl
    · refine map_bind_congr (ih alike.2 (i + 1) (j + 1)) ?_
      intro lefts rights equals
      exact congrArg Except.ok (List.cons_eq_cons.2 ⟨equal, equals⟩)

/-- Uses that differ by a substitution are converted alike if type parameters are. -/
theorem map_resolve_congr (substitution : TypeUse.IsSubstitution f)
    (parameter : ∀ name bounds here there layers,
      (resolve ⟨scope, lefts⟩ here layers (.parameter name bounds)).map (Option.map unplaced)
        = (resolve ⟨scope, rights⟩ there layers (f (.parameter name bounds))).map
          (Option.map unplaced))
    (use : TypeUse) (here there : Address) (layers : Nat) :
    (resolve ⟨scope, lefts⟩ here layers use).map (Option.map unplaced)
      = (resolve ⟨scope, rights⟩ there layers (f use)).map (Option.map unplaced) := by
  induction use using TypeUse.inductionOnComponents generalizing here there layers with
  | step use ih =>
    have leaves : ∀ raw, (some (Descriptor.leaf here raw)).map unplaced
        = (some (Descriptor.leaf there raw)).map unplaced := by
      intro raw
      exact congrArg some (Descriptor.unplaced_eq_of_parts rfl rfl rfl rfl)
    cases use with
    | plain raw =>
      rw [substitution.plain, resolve, resolve]
      exact map_wrapSome_congr (leaves raw) here there layers
    | named name =>
      rw [substitution.named, resolve, resolve, find, find]
      refine map_bind_congr (f := id) rfl ?_
      rintro raw _ rfl
      exact map_wrapSome_congr (leaves raw) here there layers
    | parameterized raw arguments =>
      rw [substitution.parameterized, resolve, resolve]
      have alike := map_resolveArguments_congr (fun argument mem here there =>
        ih argument mem here there 0) here there 0 0
      refine map_bind_congr alike ?_
      intro firsts seconds same
      refine map_wrapSome_congr ?_ here there layers
      exact congrArg some (Descriptor.unplaced_eq_of_parts rfl rfl rfl same)
    | array component =>
      rw [substitution.array, resolve, resolve]
      exact ih component List.mem_cons_self here there (layers + 1)
    | parameter name bounds => exact parameter name bounds here there layers
    | wildcard upper lower =>
      rw [substitution.wildcard]
      cases upper with
      | nil =>
        rw [List.map_nil, resolve, resolve]
        exact map_wrapSome_congr (leaves scope.top) here there layers
      | cons bound upper =>
        rw [List.map_cons, resolve, resolve]
        refine map_bind_congr (ih bound List.mem_cons_self here there 0) ?_
        intro first second same
        exact map_wrapSome_congr same here there layers
    | unnameable description =>
      rw [substitution.unnameable, resolve, resolve]

/-- A type parameter is converted alike where it stands for descriptors of the same normal form. -/
theorem map_resolve_parameter_congr {name : String}
    (bound : (lefts.find? name).map unplaced = (rights.find? name).map unplaced)
    (bounds others : List TypeUse) (here there : Address) (layers : Nat) :
    (resolve ⟨scope, lefts⟩ here layers (.parameter name bounds)).map (Option.map unplaced)
      = (resolve ⟨scope, rights⟩ there layers (.parameter name others)).map
        (Option.map unplaced) := by
  have same : (some ((lefts.find? name).getD (.leaf here scope.top))).map unplaced
      = (some ((rights.find? name).getD (.leaf there scope.top))).map unplaced := by
    rw [Option.map_some, Option.map_some, Option.some.injEq]
    obtain ⟨first, second⟩ | ⟨left, right, first, second, equal⟩ := optionMap_eq_cases bound
    · rw [first, second]
      exact Descriptor.unplaced_eq_of_parts rfl rfl rfl rfl
    · rw [first, second]
      exact equal
  rw [resolve, resolve]
  exact map_wrapSome_congr same here there layers

section Bindings

variable (bound : ∀ name, (lefts.find? name).map unplaced = (rights.find? name).map unplaced)
include bound

/-- A use is converted alike where type parameters stand for descriptors of the same normal form. -/
theorem map_convert_congr (use : TypeUse) (here there : Address) :
    (convert ⟨scope, lefts⟩ here use).map unplaced
      = (convert ⟨scope, rights⟩ there use).map unplaced := by
  rw [convert, convert]
  refine map_bind_congr (map_resolve_congr TypeUse.isSubstitution_id ?_ use here there 0) ?_
  · intro name bounds
    exact map_resolve_parameter_congr (bound name) bounds bounds
  · intro first second same
    obtain ⟨rfl, rfl⟩ | ⟨left, right, rfl, rfl, equal⟩ := optionMap_eq_cases same
    · rfl
    · exact congrArg Except.ok equal

/-- Uses are converted alike where type parameters stand for descriptors of the same normal form. -/
theorem map_convertAll_congr (uses : List TypeUse) (here there : Address) (i j : Nat) :
    (convertAll ⟨scope, lefts⟩ here i uses).map (List.map unplaced)
      = (convertAll ⟨scope, rights⟩ there j uses).map (List.map unplaced) := by
  induction uses generalizing i j with
  | nil => rfl
  | cons use rest ih =>
    rw [convertAll, convertAll]
    refine map_bind_congr (map_convert_congr bound use (here.child i) (there.child j)) ?_
    intro first second same
    refine map_bind_congr (ih (i + 1) (j + 1)) ?_
    intro firsts seconds equal
    exact congrArg Except.ok (List.cons_eq_cons.2 ⟨same, equal⟩)

end Bindings

end Alike

/-! ## What results are made of -/

/-- A name stands for what the scope answers. -/
theorem answer_of_find {conversion : Conversion} {name : String} {raw : RawType}
    (found : conversion.find name = .ok raw) : conversion.scope.find name = .ok raw := by
  unfold find at found
  cases answer : conversion.scope.find name with
  | error cause =>
    rw [answer] at found
    cases found
  | ok other =>
    rw [answer] at found
    cases found
    rfl

/-- What a use is converted to on its own is what it is converted to outside of arrays. -/
theorem resolve_of_convert {conversion : Conversion} {here : Address} {use : TypeUse}
    {descriptor : Descriptor}
    (converted : conversion.convert here use = .ok descriptor) :
    conversion.resolve here 0 use = .ok (some descriptor) := by
  rw [convert] at converted
  obtain ⟨found, resolved, converted⟩ := ok_of_bind_eq_ok converted
  cases found with
  | none => cases converted
  | some found =>
    cases converted
    exact resolved

/-- Whether everything that a conversion can put into a result, apart from the raw types of the use,
is of given kinds: the raw types, and the descriptors that are attached with their arguments. -/
structure Attaches (raws : RawType → Prop) (old : Descriptor → Prop) (conversion : Conversion) :
    Prop where
  /-- Every answer of the scope is of the kind. -/
  answer : ∀ {name raw}, conversion.scope.find name = .ok raw → raws raw
  /-- The root is of the kind. -/
  top : raws conversion.scope.top
  /-- What a type parameter stands for is of the kind. -/
  bound : ∀ {name descriptor}, conversion.bindings.find? name = some descriptor → old descriptor
  /-- So are the arguments of what is of the kind. -/
  argument : ∀ {descriptor argument}, old descriptor → argument ∈ descriptor.arguments →
    old argument

section Attaches

variable {raws : RawType → Prop} {old : Descriptor → Prop} {conversion : Conversion}

/-- The new nodes of a conversion: they are no markers. -/
abbrev Fresh (raws : RawType → Prop) (raw : RawType) (identity : Bool) : Prop :=
  raws raw ∧ identity = false

/-- A new node without arguments. -/
theorem grownAt_leaf {here : Address} {raw : RawType} (holds : raws raw) :
    (Descriptor.leaf here raw).GrownAt (Fresh raws) old here :=
  Descriptor.grownBelow_nil.grownAt ⟨holds, rfl⟩

/-- A component that is wrapped into arrays gives a new node with the arguments of the component. -/
theorem Attaches.grownAt_of_wrapSome (attaches : conversion.Attaches raws old) {here : Address}
    {layers : Nat} {component descriptor : Descriptor}
    (grown : component.GrownAt (Fresh raws) old here)
    (wrapped : conversion.wrapSome here layers (some component) = .ok (some descriptor)) :
    descriptor.GrownAt (Fresh raws) old here := by
  have wrapped := wrap_of_wrapSome wrapped
  cases layers with
  | zero =>
    cases wrapped
    exact grown
  | succ layers =>
    rw [wrap] at wrapped
    obtain ⟨raw, found, wrapped⟩ := ok_of_bind_eq_ok wrapped
    cases wrapped
    refine .new ⟨attaches.answer (answer_of_find found), rfl⟩ fun index argument found => ?_
    cases grown with
    | old holds => exact .old (attaches.argument holds (List.mem_of_getElem? found))
    | new made grown => exact grown index argument found

/-- Arguments are made one after the other, up to the first one that cannot be named. -/
theorem grownBelow_of_resolveArguments {here : Address} {index : Nat} {arguments : List TypeUse}
    {descriptors : List Descriptor}
    (grown : ∀ argument ∈ arguments, ∀ here descriptor,
      conversion.resolve here 0 argument = .ok (some descriptor) →
        descriptor.GrownAt (Fresh raws) old here)
    (resolved : conversion.resolveArguments here index arguments = .ok descriptors) :
    Descriptor.GrownBelow (Fresh raws) old here index descriptors := by
  induction arguments generalizing index descriptors with
  | nil =>
    cases resolved
    exact Descriptor.grownBelow_nil
  | cons argument rest ih =>
    rw [List.forall_mem_cons] at grown
    rw [resolveArguments] at resolved
    obtain ⟨first, firstEq, resolved⟩ := ok_of_bind_eq_ok resolved
    cases first with
    | none =>
      cases resolved
      exact Descriptor.grownBelow_nil
    | some first =>
      obtain ⟨others, othersEq, resolved⟩ := ok_of_bind_eq_ok resolved
      cases resolved
      exact (grown.1 _ first firstEq).cons (ih grown.2 othersEq)

/-- What a use is converted to is made of new nodes and of what the conversion attaches. -/
theorem Attaches.grownAt_of_resolve (attaches : conversion.Attaches raws old) {use : TypeUse}
    (uses : ∀ part ∈ use.parts, ∀ raw, part.raw? = some raw → raws raw) {here : Address}
    {layers : Nat} {descriptor : Descriptor}
    (resolved : conversion.resolve here layers use = .ok (some descriptor)) :
    descriptor.GrownAt (Fresh raws) old here := by
  induction use using TypeUse.inductionOnComponents generalizing here layers descriptor with
  | step use ih =>
    rw [TypeUse.forall_parts_iff] at uses
    cases use with
    | plain raw =>
      rw [resolve] at resolved
      exact attaches.grownAt_of_wrapSome (grownAt_leaf (uses.1 raw rfl)) resolved
    | named name =>
      rw [resolve] at resolved
      obtain ⟨raw, found, resolved⟩ := ok_of_bind_eq_ok resolved
      have holds := attaches.answer (answer_of_find found)
      exact attaches.grownAt_of_wrapSome (grownAt_leaf holds) resolved
    | parameterized raw arguments =>
      rw [resolve] at resolved
      obtain ⟨descriptors, argumentsEq, resolved⟩ := ok_of_bind_eq_ok resolved
      have below := grownBelow_of_resolveArguments (fun argument mem _ _ argumentEq =>
        ih argument mem (uses.2 argument mem) argumentEq) argumentsEq
      exact attaches.grownAt_of_wrapSome (below.grownAt ⟨uses.1 raw rfl, rfl⟩) resolved
    | array component =>
      rw [resolve] at resolved
      exact ih component List.mem_cons_self (uses.2 component List.mem_cons_self) resolved
    | parameter name bounds =>
      rw [resolve] at resolved
      refine attaches.grownAt_of_wrapSome ?_ resolved
      cases bound : conversion.bindings.find? name with
      | none => exact grownAt_leaf attaches.top
      | some descriptor => exact .old (attaches.bound bound)
    | wildcard upper lower =>
      cases upper with
      | nil =>
        rw [resolve] at resolved
        exact attaches.grownAt_of_wrapSome (grownAt_leaf attaches.top) resolved
      | cons bound upper =>
        rw [resolve] at resolved
        obtain ⟨component, componentEq, resolved⟩ := ok_of_bind_eq_ok resolved
        cases component with
        | none => cases resolved
        | some component =>
          have grown := ih bound List.mem_cons_self (uses.2 bound List.mem_cons_self) componentEq
          exact attaches.grownAt_of_wrapSome grown resolved
    | unnameable description =>
      rw [resolve] at resolved
      cases resolved

/-- Uses are converted to descriptors that are made one after the other. -/
theorem Attaches.grownBelow_of_convertAll (attaches : conversion.Attaches raws old)
    {uses : List TypeUse}
    (known : ∀ use ∈ uses, ∀ part ∈ use.parts, ∀ raw, part.raw? = some raw → raws raw)
    {here : Address} {index : Nat} {descriptors : List Descriptor}
    (converted : conversion.convertAll here index uses = .ok descriptors) :
    Descriptor.GrownBelow (Fresh raws) old here index descriptors := by
  induction uses generalizing index descriptors with
  | nil =>
    cases converted
    exact Descriptor.grownBelow_nil
  | cons use rest ih =>
    rw [List.forall_mem_cons] at known
    rw [convertAll] at converted
    obtain ⟨first, firstEq, converted⟩ := ok_of_bind_eq_ok converted
    obtain ⟨others, othersEq, converted⟩ := ok_of_bind_eq_ok converted
    cases converted
    exact (attaches.grownAt_of_resolve known.1 (resolve_of_convert firstEq)).cons
      (ih known.2 othersEq)

end Attaches

/-- Whether everything that a conversion can put into a result, apart from the raw types of the
use, has given properties. -/
structure DrawsFrom (raws : RawType → Prop) (markers : Descriptor → Prop)
    (conversion : Conversion) : Prop where
  /-- Every answer of the scope has the property. -/
  answer : ∀ {name raw}, conversion.scope.find name = .ok raw → raws raw
  /-- The root has the property. -/
  top : raws conversion.scope.top
  /-- What a type parameter stands for is made of what has the properties. -/
  bound : ∀ {name descriptor}, conversion.bindings.find? name = some descriptor →
    descriptor.MadeOf raws markers

section DrawsFrom

variable {raws : RawType → Prop} {markers : Descriptor → Prop} {conversion : Conversion}

/-- A conversion attaches what is made of what it draws from. -/
theorem DrawsFrom.attaches (draws : conversion.DrawsFrom raws markers) :
    conversion.Attaches raws (Descriptor.MadeOf raws markers) :=
  ⟨draws.answer, draws.top, draws.bound, fun made mem => (Descriptor.madeOf_iff.1 made).2 _ mem⟩

/-- What a use is converted to is made of what the conversion draws from and of the raw types of the
use. -/
theorem DrawsFrom.madeOf_of_resolve (draws : conversion.DrawsFrom raws markers) {use : TypeUse}
    (uses : ∀ part ∈ use.parts, ∀ raw, part.raw? = some raw → raws raw) {here : Address}
    {layers : Nat} {descriptor : Descriptor}
    (resolved : conversion.resolve here layers use = .ok (some descriptor)) :
    descriptor.MadeOf raws markers :=
  (draws.attaches.grownAt_of_resolve uses resolved).madeOf

/-- What uses are converted to is made of what the conversion draws from and of the raw types of the
uses. -/
theorem DrawsFrom.madeOf_of_convertAll (draws : conversion.DrawsFrom raws markers)
    {uses : List TypeUse}
    (known : ∀ use ∈ uses, ∀ part ∈ use.parts, ∀ raw, part.raw? = some raw → raws raw)
    {here : Address} {index : Nat} {descriptors : List Descriptor}
    (converted : conversion.convertAll here index uses = .ok descriptors) :
    ∀ descriptor ∈ descriptors, descriptor.MadeOf raws markers := by
  intro descriptor mem
  obtain ⟨offset, found⟩ := List.getElem?_of_mem mem
  exact (draws.attaches.grownBelow_of_convertAll known converted offset descriptor found).madeOf

end DrawsFrom

end Conversion

/-! ## Supertypes of descriptors -/

/-- Names that are bound to descriptors with the same normal forms stand for such descriptors. -/
theorem Bindings.map_find?_zip_congr (names : List String) {lefts rights : List Descriptor}
    (same : lefts.map Descriptor.unplaced = rights.map Descriptor.unplaced) (name : String) :
    (Bindings.find? (names.zip lefts) name).map Descriptor.unplaced
      = (Bindings.find? (names.zip rights) name).map Descriptor.unplaced := by
  induction names generalizing lefts rights with
  | nil => rfl
  | cons first names ih =>
    cases lefts with
    | nil =>
      cases rights with
      | nil => rfl
      | cons right rights => cases same
    | cons left lefts =>
      cases rights with
      | nil => cases same
      | cons right rights =>
        rw [List.map_cons, List.map_cons, List.cons.injEq] at same
        rw [List.zip_cons_cons, List.zip_cons_cons, find?, find?, List.lookup_cons,
          List.lookup_cons]
        split
        · exact congrArg some same.1
        · exact ih same.2

namespace Descriptor

variable {left right : Descriptor}

/-- In descriptors with the same normal form type parameters stand for descriptors with the same
normal form. -/
theorem map_find?_bindings_congr (same : left.unplaced = right.unplaced) (name : String) :
    (left.bindings.find? name).map unplaced = (right.bindings.find? name).map unplaced := by
  have arguments := arguments_eq_of_unplaced_eq same
  have lengths := congrArg List.length arguments
  rw [List.length_map, List.length_map] at lengths
  rw [bindings, bindings, raw_eq_of_unplaced_eq same, lengths]
  split
  · exact Bindings.map_find?_zip_congr _ arguments name
  · rfl

/-- In a descriptor type parameters stand for its arguments. -/
theorem mem_arguments_of_find?_bindings {descriptor argument : Descriptor} {name : String}
    (stands : descriptor.bindings.find? name = some argument) :
    argument ∈ descriptor.arguments := by
  have bound := Bindings.mem_of_find? stands
  rw [bindings] at bound
  split at bound
  · exact (List.of_mem_zip bound).2
  · cases bound

/-- Descriptors with the same normal form have supertypes with the same normal forms. -/
theorem map_genericSupertypes_congr (same : left.unplaced = right.unplaced) (scope : Scope)
    (here there : Address) :
    (left.genericSupertypes scope here).map (List.map unplaced)
      = (right.genericSupertypes scope there).map (List.map unplaced) := by
  rw [genericSupertypes, genericSupertypes, raw_eq_of_unplaced_eq same]
  exact Conversion.map_convertAll_congr (map_find?_bindings_congr same) _ here there 0 0

/-- Supertypes are made of what a descriptor is made of, the raw types that the scope answers, and
those in the supertypes that the raw type was declared with. -/
theorem MadeOf.of_mem_genericSupertypes {raws : RawType → Prop} {markers : Descriptor → Prop}
    {descriptor : Descriptor} (made : descriptor.MadeOf raws markers) {scope : Scope}
    (answer : ∀ {name raw}, scope.find name = .ok raw → raws raw) (top : raws scope.top)
    (declared : ∀ supertype ∈ descriptor.raw.supertypes, ∀ part ∈ supertype.toUse.parts,
      ∀ raw, part.raw? = some raw → raws raw)
    {here : Address} {supertypes : List Descriptor}
    (converted : descriptor.genericSupertypes scope here = .ok supertypes) :
    ∀ supertype ∈ supertypes, supertype.MadeOf raws markers := by
  have draws : Conversion.DrawsFrom raws markers ⟨scope, descriptor.bindings⟩ :=
    ⟨answer, top, fun stands => (madeOf_iff.1 made).2 _ (mem_arguments_of_find?_bindings stands)⟩
  exact draws.madeOf_of_convertAll (List.forall_mem_map.2 declared) converted

end Descriptor

end GenericTypes
