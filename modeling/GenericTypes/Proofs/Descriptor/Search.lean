import Mathlib.Logic.Relation
import GenericTypes.Descriptor.Hierarchy
import GenericTypes.Proofs.Descriptor.Conversion
import GenericTypes.Proofs.Registry.Supertypes

/-! # Search through supertypes

A search for a descriptor above a candidate keeps the descriptors it has refused and those that are
waiting. In a turn it takes any that is waiting, leaves it out if it is equal to a refused one, and
otherwise refuses it and lets its supertypes wait. The invariant says that everything that is one
step above a refused descriptor has been met, up to the places of nodes. As steps up and acceptance
do not depend on these places, a search that has nothing left to do has met everything above the
candidate. The search of the program is one of these searches, so it finds what there is to find,
and no other order finds more or less. -/

namespace GenericTypes

namespace Descriptor

variable {scope : Scope} {expected start lower upper : Descriptor}

/-! ## Steps up -/

/-- The supertypes of a descriptor as made at some address, none if one of them cannot be
converted. -/
def supertypesAt (scope : Scope) (here : Address) (descriptor : Descriptor) : List Descriptor :=
  (descriptor.genericSupertypes scope here).toOption.getD []

/-- Whether a descriptor is one of the supertypes of another, wherever these are made. -/
def StepsUp (scope : Scope) (lower upper : Descriptor) : Prop :=
  ∃ here supertypes, lower.genericSupertypes scope here = .ok supertypes ∧ upper ∈ supertypes

/-- Whether any number of steps up lead from a descriptor to another. -/
def Reaches (scope : Scope) : Descriptor → Descriptor → Prop :=
  Relation.ReflTransGen (StepsUp scope)

/-- A step up leads to one of the supertypes as made at some address. -/
theorem stepsUp_iff :
    lower.StepsUp scope upper ↔ ∃ here, upper ∈ lower.supertypesAt scope here := by
  apply exists_congr
  intro here
  rw [supertypesAt]
  cases lower.genericSupertypes scope here with
  | error cause => simp [Except.toOption]
  | ok supertypes => simp [Except.toOption]

/-- Descriptors with the same normal form have supertypes with the same normal forms. -/
theorem map_supertypesAt_congr (same : lower.unplaced = upper.unplaced) (here there : Address) :
    (lower.supertypesAt scope here).map unplaced
      = (upper.supertypesAt scope there).map unplaced := by
  rw [supertypesAt, supertypesAt]
  obtain ⟨cause, left, right⟩ | ⟨lefts, rights, left, right, equal⟩ :=
    map_eq_map_cases (map_genericSupertypes_congr same scope here there)
  · rw [left, right]
  · rw [left, right]
    exact equal

end Descriptor

open Descriptor (unplaced Reaches StepsUp supertypesAt)

/-- The state of a search. -/
structure Search where
  /-- The descriptors that have been refused. -/
  seen : List Descriptor
  /-- The descriptors that are waiting. -/
  waiting : List Descriptor

namespace Search

/-- A turn of a search that goes on. -/
inductive Turn (scope : Scope) (expected : Descriptor) : Search → Search → Prop
  /-- A descriptor that is equal to one that has been seen is left out. -/
  | skip {seen before after : List Descriptor} {current : Descriptor}
    (known : seen.any (· == current) = true) :
    Turn scope expected ⟨seen, before ++ current :: after⟩ ⟨seen, before ++ after⟩
  /-- A descriptor that is not accepted has its supertypes wait, wherever these are made. -/
  | climb {seen before after : List Descriptor} {current : Descriptor}
    (new : seen.any (· == current) = false) (refused : expected.accepts current = false)
    (here : Address) :
    Turn scope expected ⟨seen, before ++ current :: after⟩
      ⟨current :: seen, before ++ after ++ current.supertypesAt scope here⟩

/-- Any number of turns. -/
def Runs (scope : Scope) (expected : Descriptor) : Search → Search → Prop :=
  Relation.ReflTransGen (Turn scope expected)

/-- The answer of a search that ends. -/
inductive Ends (expected : Descriptor) : Search → Bool → Prop
  /-- A descriptor that has not been seen is accepted. -/
  | found {seen waiting : List Descriptor} {current : Descriptor} (mem : current ∈ waiting)
    (new : seen.any (· == current) = false) (accepted : expected.accepts current = true) :
    Ends expected ⟨seen, waiting⟩ true
  /-- Nothing is waiting. -/
  | exhausted (seen : List Descriptor) : Ends expected ⟨seen, []⟩ false

/-- A search for something above a descriptor. -/
def begin (start : Descriptor) : Search :=
  ⟨[], [start]⟩

/-! ## Termination -/

variable {scope : Scope} {expected start : Descriptor} {search later : Search}

/-- Every turn makes what is waiting smaller. -/
theorem Turn.searchBound_lt (turn : Turn scope expected search later) :
    Descriptor.searchBound later.waiting < Descriptor.searchBound search.waiting := by
  cases turn with
  | @skip seen before after current known =>
    have smaller := Descriptor.searchBound_genericSupertypes_lt scope current.address current
    simp only [Descriptor.searchBound, List.map_append, List.map_cons, Declaration.totalSize,
      Declaration.totalSize_append]
    omega
  | @climb seen before after current new refused here =>
    have smaller := Descriptor.searchBound_genericSupertypes_lt scope here current
    simp only [Descriptor.searchBound, supertypesAt, List.map_append, List.map_cons,
      Declaration.totalSize, Declaration.totalSize_append] at smaller ⊢
    omega

/-- No search takes turns for ever. -/
theorem wellFounded_turn (scope : Scope) (expected : Descriptor) :
    WellFounded fun later search => Turn scope expected search later :=
  Subrelation.wf (fun turn => turn.searchBound_lt)
    (InvImage.wf (fun search : Search => Descriptor.searchBound search.waiting) Nat.lt_wfRel.wf)

/-- A search that has not ended takes a turn. -/
theorem exists_ends_or_turn (scope : Scope) (expected : Descriptor) (search : Search) :
    (∃ answer, Ends expected search answer) ∨ ∃ later, Turn scope expected search later := by
  obtain ⟨seen, waiting⟩ := search
  cases waiting with
  | nil => exact .inl ⟨false, .exhausted seen⟩
  | cons current rest =>
    cases known : seen.any (· == current) with
    | true =>
      have turn : Turn scope expected ⟨seen, [] ++ current :: rest⟩ ⟨seen, [] ++ rest⟩ :=
        .skip known
      exact .inr ⟨_, turn⟩
    | false =>
      cases accepted : expected.accepts current with
      | true => exact .inl ⟨true, .found List.mem_cons_self known accepted⟩
      | false =>
        have turn : Turn scope expected ⟨seen, [] ++ current :: rest⟩
            ⟨current :: seen, [] ++ rest ++ current.supertypesAt scope current.address⟩ :=
          .climb known accepted current.address
        exact .inr ⟨_, turn⟩

/-! ## The invariant -/

/-- Whether equality tells apart all descriptors that are made of some raw types and markers, and
steps up lead from these to no others. -/
structure IsClosed (scope : Scope) (raws : RawType → Prop) (markers : Descriptor → Prop) :
    Prop where
  /-- Names tell the raw types apart. -/
  raw_eq : ∀ left right, raws left → raws right → left.name = right.name → left = right
  /-- Places tell the markers apart. -/
  marker_eq : ∀ left right, markers left → markers right → left.address = right.address →
    left = right
  /-- Supertypes are made of the same raw types and markers. -/
  madeOf : ∀ {descriptor : Descriptor}, descriptor.MadeOf raws markers → ∀ here,
    ∀ upper ∈ descriptor.supertypesAt scope here, upper.MadeOf raws markers

/-- Whether a descriptor has been met: it differs from one that has been seen or is waiting at most
in the places of its nodes. -/
def Covers (search : Search) (descriptor : Descriptor) : Prop :=
  descriptor.unplaced ∈ (search.seen ++ search.waiting).map unplaced

/-- What holds during a search for something above a descriptor. -/
structure Invariant (scope : Scope) (expected start : Descriptor) (raws : RawType → Prop)
    (markers : Descriptor → Prop) (search : Search) : Prop where
  /-- All descriptors are made of the given raw types and markers. -/
  made : ∀ descriptor ∈ search.seen ++ search.waiting, descriptor.MadeOf raws markers
  /-- What is waiting is above the start. -/
  reached : ∀ descriptor ∈ search.waiting, start.Reaches scope descriptor
  /-- What has been seen is not accepted. -/
  refused : ∀ descriptor ∈ search.seen, expected.accepts descriptor = false
  /-- The start has been met. -/
  started : search.Covers start
  /-- Everything one step above what has been seen has been met. -/
  climbed : ∀ descriptor ∈ search.seen, ∀ here, ∀ upper ∈ descriptor.supertypesAt scope here,
    search.Covers upper

section Invariant

variable {raws : RawType → Prop} {markers : Descriptor → Prop}

/-- A search begins with the start waiting. -/
theorem invariant_begin (made : start.MadeOf raws markers) :
    Invariant scope expected start raws markers (begin start) where
  made := List.forall_mem_singleton.2 made
  reached := List.forall_mem_singleton.2 .refl
  refused := nofun
  started := List.mem_singleton.2 rfl
  climbed := nofun

/-- What has been seen and is equal to a descriptor differs from it in the places of nodes only. -/
theorem Invariant.mem_of_known (invariant : Invariant scope expected start raws markers search)
    (closed : IsClosed scope raws markers) {current : Descriptor}
    (made : current.MadeOf raws markers) (known : search.seen.any (· == current) = true) :
    current.unplaced ∈ search.seen.map unplaced := by
  obtain ⟨other, mem, equal⟩ := List.any_eq_true.1 known
  have otherMade := invariant.made other (List.mem_append_left _ mem)
  have same := Descriptor.unplaced_eq_of_equal closed.raw_eq closed.marker_eq otherMade made equal
  exact List.mem_map.2 ⟨other, mem, same⟩

/-- Leaving out a descriptor that is equal to one that has been seen keeps the invariant. -/
theorem Invariant.skip (closed : IsClosed scope raws markers) {seen before after : List Descriptor}
    {current : Descriptor}
    (invariant : Invariant scope expected start raws markers ⟨seen, before ++ current :: after⟩)
    (known : seen.any (· == current) = true) :
    Invariant scope expected start raws markers ⟨seen, before ++ after⟩ := by
  have fewer := (List.sublist_cons_self current after).append_left before
  have inside : current ∈ seen ++ (before ++ current :: after) := by
    simp
  have again := invariant.mem_of_known closed (invariant.made current inside) known
  -- the descriptor that is left out has been met in the one that has been seen
  have covers : ∀ descriptor, Covers ⟨seen, before ++ current :: after⟩ descriptor →
      Covers ⟨seen, before ++ after⟩ descriptor := by
    intro descriptor covered
    simp only [Covers, List.map_append, List.map_cons, List.mem_append, List.mem_cons]
      at covered again ⊢
    rcases covered with met | met | met | met
    · exact .inl met
    · exact .inr (.inl met)
    · exact .inl (met ▸ again)
    · exact .inr (.inr met)
  exact {
    made := fun descriptor mem => invariant.made descriptor ((fewer.append_left seen).subset mem)
    reached := fun descriptor mem => invariant.reached descriptor (fewer.subset mem)
    refused := invariant.refused
    started := covers start invariant.started
    climbed := fun descriptor mem here upper above =>
      covers upper (invariant.climbed descriptor mem here upper above) }

/-- Refusing a descriptor and letting its supertypes wait keeps the invariant. -/
theorem Invariant.climb (closed : IsClosed scope raws markers) {seen before after : List Descriptor}
    {current : Descriptor}
    (invariant : Invariant scope expected start raws markers ⟨seen, before ++ current :: after⟩)
    (refused : expected.accepts current = false) (here : Address) :
    Invariant scope expected start raws markers
      ⟨current :: seen, before ++ after ++ current.supertypesAt scope here⟩ := by
  have fewer := (List.sublist_cons_self current after).append_left before
  have inside : current ∈ before ++ current :: after := by
    simp
  have made := invariant.made current (List.mem_append_right seen inside)
  have covers : ∀ descriptor, Covers ⟨seen, before ++ current :: after⟩ descriptor →
      Covers ⟨current :: seen, before ++ after ++ current.supertypesAt scope here⟩ descriptor := by
    intro descriptor covered
    simp only [Covers, List.map_append, List.map_cons, List.mem_append, List.mem_cons] at covered ⊢
    tauto
  exact {
    made := by
      intro descriptor mem
      simp only [List.cons_append, List.mem_cons, List.mem_append] at mem
      rcases mem with rfl | mem | mem | above
      · exact made
      · exact invariant.made descriptor (List.mem_append_left _ mem)
      · have mem := List.mem_append.2 mem
        exact invariant.made descriptor (List.mem_append_right seen (fewer.subset mem))
      · exact closed.madeOf made here descriptor above
    reached := by
      intro descriptor mem
      rcases List.mem_append.1 mem with mem | above
      · exact invariant.reached descriptor (fewer.subset mem)
      · exact (invariant.reached current inside).tail (Descriptor.stepsUp_iff.2 ⟨here, above⟩)
    refused := List.forall_mem_cons.2 ⟨refused, invariant.refused⟩
    started := covers start invariant.started
    climbed := by
      intro descriptor mem there upper above
      rcases List.mem_cons.1 mem with rfl | mem
      · -- the supertypes that wait differ from those made elsewhere in the places of nodes only
        have waits : upper.unplaced ∈ (descriptor.supertypesAt scope here).map unplaced := by
          rw [Descriptor.map_supertypesAt_congr rfl here there]
          exact List.mem_map_of_mem above
        rw [Covers, List.map_append, List.map_append]
        exact List.mem_append_right _ (List.mem_append_right _ waits)
      · exact covers upper (invariant.climbed descriptor mem there upper above) }

/-- A run of a search keeps the invariant. -/
theorem Invariant.run (closed : IsClosed scope raws markers)
    (invariant : Invariant scope expected start raws markers search)
    (runs : Runs scope expected search later) :
    Invariant scope expected start raws markers later := by
  induction runs with
  | refl => exact invariant
  | tail _ turn ih =>
    cases turn with
    | skip known => exact ih.skip closed known
    | climb new refused here => exact ih.climb closed refused here

/-- When nothing is waiting everything above the start has been seen. -/
theorem Invariant.mem_of_reaches {seen : List Descriptor}
    (invariant : Invariant scope expected start raws markers ⟨seen, []⟩) {above : Descriptor}
    (reaches : start.Reaches scope above) : above.unplaced ∈ seen.map unplaced := by
  have covers_iff : ∀ descriptor : Descriptor,
      Covers ⟨seen, []⟩ descriptor ↔ descriptor.unplaced ∈ seen.map unplaced := by
    intro descriptor
    rw [Covers, List.append_nil]
  induction reaches with
  | refl => exact (covers_iff start).1 invariant.started
  | tail _ step ih =>
    -- the same step leads up from the descriptor that has been seen
    obtain ⟨other, mem, same⟩ := List.mem_map.1 ih
    obtain ⟨here, inside⟩ := Descriptor.stepsUp_iff.1 step
    have inside := List.mem_map_of_mem (f := unplaced) inside
    rw [← Descriptor.map_supertypesAt_congr same here here] at inside
    obtain ⟨upper, above, equal⟩ := List.mem_map.1 inside
    rw [← equal]
    exact (covers_iff upper).1 (invariant.climbed other mem here upper above)

/-- The answer of a search says whether a descriptor above the start is accepted. -/
theorem Invariant.answer_iff (invariant : Invariant scope expected start raws markers search)
    {answer : Bool} (ends : Ends expected search answer) :
    answer = true ↔ ∃ above, start.Reaches scope above ∧ expected.accepts above = true := by
  cases ends with
  | found mem new accepted => exact iff_of_true rfl ⟨_, invariant.reached _ mem, accepted⟩
  | exhausted seen =>
    refine iff_of_false Bool.false_ne_true ?_
    rintro ⟨above, reaches, accepted⟩
    obtain ⟨other, mem, same⟩ := List.mem_map.1 (invariant.mem_of_reaches reaches)
    have refused : expected.accepts other = false := invariant.refused other mem
    rw [Descriptor.accepts_eq_of_unplaced_eq same, accepted] at refused
    cases refused

end Invariant

/-! ## The search of the program -/

/-- The search of the program takes the first descriptor that is waiting in each turn. -/
theorem exists_run_acceptsAbove (scope : Scope) (expected : Descriptor)
    (seen queue : List Descriptor) :
    ∃ final, Runs scope expected ⟨seen, queue⟩ final
      ∧ Ends expected final (Descriptor.acceptsAbove scope expected seen queue) := by
  fun_induction Descriptor.acceptsAbove scope expected seen queue with
  | case1 seen => exact ⟨_, .refl, .exhausted seen⟩
  | case2 seen current rest _ known ih =>
    obtain ⟨final, runs, ends⟩ := ih
    have turn : Turn scope expected ⟨seen, [] ++ current :: rest⟩ ⟨seen, [] ++ rest⟩ :=
      .skip known
    exact ⟨final, .head turn runs, ends⟩
  | case3 seen current rest _ new ih =>
    have new := eq_false_of_ne_true new
    cases accepted : expected.accepts current with
    | true => exact ⟨_, .refl, .found List.mem_cons_self new accepted⟩
    | false =>
      -- the program makes the supertypes at the address of the descriptor
      obtain ⟨final, runs, ends⟩ := ih
      have turn : Turn scope expected ⟨seen, [] ++ current :: rest⟩
          ⟨current :: seen, [] ++ rest ++ current.supertypesAt scope current.address⟩ :=
        .climb new accepted current.address
      exact ⟨final, .head turn runs, ends⟩

end Search

namespace Registry

variable {registry : Registry}

/-- Raw types inside the supertypes that a type was declared with have declared elements. -/
theorem Resolved.element_mem_of_supertypes (resolved : registry.Resolved) {raw : RawType}
    (mem : raw.element ∈ registry.declared) :
    ∀ supertype ∈ raw.supertypes, ∀ part ∈ supertype.toUse.parts, ∀ inner,
      part.raw? = some inner → inner.element ∈ registry.declared := by
  intro supertype named part inside inner base
  have isResolved := resolved.isResolved_supertypes mem supertype named part inside
  have known : registry.Knows inner := by
    cases part with
    | plain raw =>
      cases base
      exact isResolved
    | parameterized raw arguments =>
      cases base
      exact isResolved.1
    | _ => cases base
  obtain ⟨name, found⟩ := known
  exact resolved.element_mem_of_find found

/-- Among descriptors over the raw types of a registry that calls lead to from the standard one,
equality tells apart what is not the same if places tell markers apart. -/
theorem ReachableFrom.isClosed (reached : ReachableFrom standard registry)
    {markers : Descriptor → Prop}
    (places : ∀ left right, markers left → markers right → left.address = right.address →
      left = right) :
    Search.IsClosed registry.scope (fun raw => raw.element ∈ registry.declared) markers where
  raw_eq := fun left right leftMem rightMem same =>
    reached.populated.eq_of_name_eq leftMem rightMem same
  marker_eq := places
  madeOf := by
    intro descriptor made here upper above
    have populated := reached.populated
    have declared := reached.isReachable.resolved.element_mem_of_supertypes
      (Descriptor.madeOf_iff.1 made).1.1
    rw [supertypesAt] at above
    cases converted : descriptor.genericSupertypes registry.scope here with
    | error cause =>
      rw [converted] at above
      cases above
    | ok supertypes =>
      rw [converted] at above
      exact made.of_mem_genericSupertypes populated.element_mem_of_find populated.top_mem declared
        converted upper above

/-- A search above a descriptor over raw types of the registry whose markers are told apart by their
places answers whether something is accepted to which steps up lead. -/
theorem ReachableFrom.answer_iff (reached : ReachableFrom standard registry)
    {expected start : Descriptor} (handles : ∀ node ∈ start.nodes, registry.IsHandle node.raw)
    (places : start.PlacesAgree) {final : Search} {answer : Bool}
    (runs : Search.Runs registry.scope expected (.begin start) final)
    (ends : Search.Ends expected final answer) :
    answer = true ↔
      ∃ above, start.Reaches registry.scope above ∧ expected.accepts above = true := by
  let markers : Descriptor → Prop := fun node => node ∈ start.nodes ∧ node.identity = true
  have closed : Search.IsClosed registry.scope (fun raw => raw.element ∈ registry.declared)
      markers :=
    reached.isClosed fun left right leftIn rightIn =>
      places left leftIn.1 right rightIn.1 leftIn.2 rightIn.2
  have made : start.MadeOf (fun raw => raw.element ∈ registry.declared) markers := by
    intro node inside
    exact ⟨reached.populated.isHandle_iff.1 (handles node inside), fun marker => ⟨inside, marker⟩⟩
  exact ((Search.invariant_begin made).run closed runs).answer_iff ends

/-- **A search finds what is above a candidate, in any order.** In a registry that calls lead to
from the standard one, take a candidate over raw types of the registry whose markers are told apart
by their places. The search of the program accepts it exactly when a descriptor is accepted to which
steps up lead from the candidate without its value. Every search ends, in whatever order it takes
what is waiting and wherever it makes supertypes, and gives this answer. -/
theorem ReachableFrom.acceptsThroughSupertypes_iff {α β : Type}
    (reached : ReachableFrom standard registry) (expected : Carrier α) (candidate : Carrier β)
    (here : Address)
    (handles : ∀ node ∈ candidate.descriptor.nodes, registry.IsHandle node.raw)
    (places : (candidate.withoutPayload here).PlacesAgree) :
    let start := candidate.withoutPayload here
    let accepted := expected.descriptor.acceptsThroughSupertypes registry.scope start
    (accepted = true ↔
        ∃ above, start.Reaches registry.scope above ∧ expected.descriptor.accepts above = true)
      ∧ (WellFounded fun later search =>
        Search.Turn registry.scope expected.descriptor search later)
      ∧ (∀ search, (∃ answer, Search.Ends expected.descriptor search answer)
        ∨ ∃ later, Search.Turn registry.scope expected.descriptor search later)
      ∧ ∀ final answer, Search.Runs registry.scope expected.descriptor (.begin start) final →
        Search.Ends expected.descriptor final answer → answer = accepted := by
  intro start accepted
  have known : ∀ node ∈ start.nodes, registry.IsHandle node.raw :=
    Descriptor.forall_nodes_iff.2 (Descriptor.forall_nodes_iff.1 handles)
  obtain ⟨final, runs, ends⟩ := Search.exists_run_acceptsAbove registry.scope expected.descriptor []
    [start]
  have found := reached.answer_iff known places runs ends
  refine ⟨found, Search.wellFounded_turn _ _, Search.exists_ends_or_turn _ _, ?_⟩
  intro other answer otherRuns otherEnds
  exact Bool.eq_iff_iff.2 ((reached.answer_iff known places otherRuns otherEnds).trans found.symm)

/-- A definition of an interface with a type parameter. -/
def boxDefinition : Definition :=
  { name := "Box", isInterface := true, parameters := ["T"] }

/-- A definition of an interface that hands one of two type parameters on. -/
def crateDefinition : Definition :=
  { name := "Crate", isInterface := true, parameters := ["S", "T"], interfaces := ["Box<T>"] }

/-- The interface with a type parameter. -/
def box : Declaration :=
  .interface "Box" ["T"] []

/-- The interface that hands one of two type parameters on. -/
def crate : Declaration :=
  .interface "Crate" ["S", "T"] [⟨box, [.parameter "T" []]⟩]

/-- The standard registry with these interfaces. -/
def crates : Registry :=
  ((standard.define boxDefinition).2.define crateDefinition).2

/-- Both definitions are accepted. -/
theorem declared_crates : crates.declared = crate :: box :: standard.declared := by
  have first : standard.define boxDefinition = (.ok box, standard.insert box) := by
    have sound : boxDefinition.fault? = none := by decide
    have new : standard.declared? boxDefinition.name = none :=
      declared?_standard_eq_none (by decide) (by decide)
    refine define_eq_of_declarationBy ?_ new
    simp only [declarationBy, sound, contains, new]
    rfl
  have above : interfaces (standard.insert box).find crateDefinition
      = .ok [⟨box, [.parameter "T" []]⟩] := by
    have outer : Signature.split? "Box<T>" = some ("Box", ["T"]) := by decide
    have inner : Signature.split? "T" = some ("T", []) := by decide
    have signature : Signature.ofText "Box<T>" = .applied "Box" [.applied "T" []] := by
      rw [Signature.ofText_of_split? outer, List.map_cons, Signature.ofText_of_split? inner]
      rfl
    simp only [interfaces, crateDefinition, List.mapM_cons, List.mapM_nil, supertype, signature,
      Signature.resolve_applied]
    rfl
  have second : (standard.insert box).declaration crateDefinition = .ok crate := by
    have sound : crateDefinition.fault? = none := by decide
    have new : (standard.insert box).declared? crateDefinition.name = none := by
      rw [crateDefinition, declared?_insert_of_ne (by decide),
        declared?_standard_eq_none (by decide) (by decide)]
    simp only [declaration, declarationBy, sound, contains, new, above]
    rfl
  rw [crates, first, declared_define, second]
  rfl

/-- Calls lead there from the standard registry. -/
theorem reachableFrom_crates : ReachableFrom standard crates :=
  .define (.define .start boxDefinition) crateDefinition

/-- The interface with a type parameter is a raw type of the registry. -/
theorem isHandle_box : crates.IsHandle (.ofDeclaration box) := by
  have mem : box ∈ crates.declared := by
    rw [declared_crates]
    exact List.mem_cons_of_mem _ List.mem_cons_self
  exact reachableFrom_crates.populated.isHandle_iff.2 mem

/-- The interface that hands a type parameter on is a raw type of the registry. -/
theorem isHandle_crate : crates.IsHandle (.ofDeclaration crate) := by
  have mem : crate ∈ crates.declared := by
    rw [declared_crates]
    exact List.mem_cons_self
  exact reachableFrom_crates.populated.isHandle_iff.2 mem

/-- A box of numbers does not accept a crate that holds a marker for numbers, as the number of
arguments is another one, but it accepts the box above the crate. -/
theorem ReachableFrom.acceptsThroughSupertypes_crate :
    let int : Descriptor := .leaf ⟨0, []⟩ (.ofDeclaration (.primitive .int))
    let marker : Descriptor := int.toIdentity ⟨1, []⟩
    let expected : Carrier Unit := ⟨⟨⟨2, []⟩, .ofDeclaration box, [int], false⟩, ()⟩
    let candidate : Carrier Nat := ⟨⟨⟨3, []⟩, .ofDeclaration crate, [int, marker], false⟩, 7⟩
    ReachableFrom standard crates
      ∧ (∀ node ∈ candidate.descriptor.nodes, crates.IsHandle node.raw)
      ∧ (candidate.withoutPayload ⟨4, []⟩).PlacesAgree
      ∧ expected.descriptor.acceptsThroughSupertypes crates.scope
        (candidate.withoutPayload ⟨4, []⟩) = true
      ∧ expected.descriptor.accepts candidate.descriptor = false := by
  intro int marker expected candidate
  have reached : ReachableFrom standard crates := .define (.define .start _) _
  have handles : ∀ node ∈ candidate.descriptor.nodes, crates.IsHandle node.raw := by
    have crateHandle : crates.IsHandle (.ofDeclaration crate) :=
      reached.populated.isHandle_iff.2 (declared_crates ▸ List.mem_cons_self)
    have intHandle : crates.IsHandle (.ofDeclaration (.primitive .int)) :=
      reached.populated.isHandle_iff.2 (reached.populated.primitive_mem .int)
    refine Descriptor.forall_nodes_iff.2 ⟨crateHandle, List.forall_mem_cons.2 ⟨?_, ?_⟩⟩
    · exact Descriptor.forall_nodes_iff.2 ⟨intHandle, nofun⟩
    · exact List.forall_mem_singleton.2 (Descriptor.forall_nodes_iff.2 ⟨intHandle, nofun⟩)
  have places : (candidate.withoutPayload ⟨4, []⟩).PlacesAgree := by
    have isMarker : ∀ node ∈ (candidate.withoutPayload ⟨4, []⟩).nodes,
        node.identity = true → node = marker := by
      refine Descriptor.forall_nodes_iff.2 ⟨nofun, List.forall_mem_cons.2 ⟨?_, ?_⟩⟩
      · exact Descriptor.forall_nodes_iff.2 ⟨nofun, nofun⟩
      · exact List.forall_mem_singleton.2 (Descriptor.forall_nodes_iff.2 ⟨fun _ => rfl, nofun⟩)
    intro left leftIn right rightIn leftMarker rightMarker _
    rw [isMarker left leftIn leftMarker, isMarker right rightIn rightMarker]
  obtain ⟨accepts_iff, -⟩ :=
    reached.acceptsThroughSupertypes_iff expected candidate ⟨4, []⟩ handles places
  refine ⟨reached, handles, places, accepts_iff.2 ?_, by cbv⟩
  let above : Descriptor := ⟨⟨4, [0]⟩, .ofDeclaration box, [marker], false⟩
  have step : (candidate.withoutPayload ⟨4, []⟩).StepsUp crates.scope above :=
    ⟨⟨4, []⟩, [above], rfl, List.mem_cons_self⟩
  exact ⟨above, .single step, by cbv⟩

end Registry

end GenericTypes
