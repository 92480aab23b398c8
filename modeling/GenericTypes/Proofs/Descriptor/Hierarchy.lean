import GenericTypes.Descriptor.Hierarchy
import GenericTypes.Proofs.Descriptor.Fit

/-! # Acceptance through supertypes between two tests

The search through supertypes lies between two tests without a search. It accepts whatever fits by
itself, as the candidate is the first descriptor that is looked at. And it accepts nothing whose raw
type is refused: what it accepts is above the candidate, every step up leads to a raw type directly
above, whatever becomes of the arguments, and acceptance of raw types follows such steps down. -/

namespace GenericTypes

namespace Descriptor

variable {scope : Scope} {expected lower upper : Descriptor}

/-- Everything that the search accepts is above a descriptor in its queue. -/
theorem exists_reaches_of_acceptsAbove {seen queue : List Descriptor}
    (accepted : acceptsAbove scope expected seen queue = true) :
    ∃ start ∈ queue, ∃ above, start.Reaches scope above ∧ expected.accepts above = true := by
  fun_induction acceptsAbove scope expected seen queue with
  | case1 seen => cases accepted
  | case2 seen current rest _ known ih =>
    obtain ⟨start, inside, reached⟩ := ih accepted
    exact ⟨start, List.mem_cons_of_mem current inside, reached⟩
  | case3 seen current rest _ new ih =>
    rcases Bool.or_eq_true_iff.1 accepted with accepted | accepted
    · exact ⟨current, List.mem_cons_self, current, .refl, accepted⟩
    · obtain ⟨start, inside, above, reaches, accepted⟩ := ih accepted
      rcases List.mem_append.1 inside with inside | inside
      · exact ⟨start, List.mem_cons_of_mem current inside, above, reaches, accepted⟩
      · -- the start is a supertype of the descriptor that has just been refused
        have step : current.StepsUp scope start := stepsUp_iff.2 ⟨current.address, inside⟩
        exact ⟨current, List.mem_cons_self, above, .head step reaches, accepted⟩

/-- A descriptor that has not been seen is accepted, or the search goes on with its supertypes. -/
theorem acceptsAbove_cons {seen : List Descriptor} (new : seen.any (· == lower) = false)
    (rest : List Descriptor) :
    acceptsAbove scope expected seen (lower :: rest)
      = (expected.accepts lower || acceptsAbove scope expected (lower :: seen)
        (rest ++ lower.knownSupertypes scope)) := by
  rw [acceptsAbove, new]
  rfl

/-- A descriptor that fits is accepted through supertypes. -/
theorem acceptsThroughSupertypes_of_accepts (accepts : expected.accepts lower = true) :
    expected.acceptsThroughSupertypes scope lower = true := by
  rw [acceptsThroughSupertypes, acceptsAbove_cons List.any_nil, accepts, Bool.true_or]

/-- A step up leads to a raw type directly above. -/
theorem StepsUp.raw_mem_parents (step : lower.StepsUp scope upper) :
    upper.raw ∈ lower.raw.parents := by
  obtain ⟨here, supertypes, converted, inside⟩ := step
  rw [← raw_of_genericSupertypes converted]
  exact List.mem_map_of_mem inside

end Descriptor

namespace Registry

variable {registry : Registry}

/-- A raw type accepts the raw type of a descriptor if it accepts that of one above it. -/
theorem Populated.rawAccepts_of_reaches (populated : registry.Populated) {target : RawType}
    (targetMem : target.element ∈ registry.declared) {start above : Descriptor}
    (startMem : start.raw.element ∈ registry.declared)
    (reaches : start.Reaches registry.scope above) (accepts : target.accepts above.raw = true) :
    target.accepts start.raw = true := by
  induction reaches using Relation.ReflTransGen.head_induction_on with
  | refl => exact accepts
  | head step _ ih =>
    obtain ⟨upperMem, down⟩ :=
      populated.rawAccepts_of_directlyBelow startMem (.parent step.raw_mem_parents)
    exact down target targetMem (ih upperMem)

/-- **Acceptance through supertypes lies between exact fit and acceptance of raw types.** In a
registry that calls lead to from the standard one, take a descriptor and a candidate, both of raw
types of the registry. If the search finds the candidate or a descriptor above it accepted, the raw
type of the candidate is accepted; and a candidate that is accepted by itself is accepted by the
search. -/
theorem ReachableFrom.acceptsThroughSupertypes_bounds {α β : Type}
    (reached : ReachableFrom standard registry) (expected : Carrier α) (candidate : Carrier β)
    (here : Address) (expectedHandle : registry.IsHandle expected.descriptor.raw)
    (candidateHandle : registry.IsHandle candidate.descriptor.raw) :
    (expected.descriptor.acceptsThroughSupertypes registry.scope (candidate.withoutPayload here)
        = true → expected.descriptor.raw.accepts candidate.descriptor.raw = true)
      ∧ (expected.descriptor.accepts candidate.descriptor = true →
        expected.descriptor.acceptsThroughSupertypes registry.scope (candidate.withoutPayload here)
          = true) := by
  have populated := reached.populated
  rw [populated.isHandle_iff] at expectedHandle candidateHandle
  constructor
  · intro accepted
    obtain ⟨start, inside, above, reaches, accepts⟩ :=
      Descriptor.exists_reaches_of_acceptsAbove accepted
    cases List.mem_singleton.1 inside
    -- the search starts from a copy, which has the same raw type
    show expected.descriptor.raw.accepts (candidate.withoutPayload here).raw = true
    exact populated.rawAccepts_of_reaches expectedHandle candidateHandle reaches
      (Descriptor.accepts_iff_fitsBy.1 accepts).raw
  · intro accepts
    exact Descriptor.acceptsThroughSupertypes_of_accepts accepts

/-- A box of numbers accepts a crate of numbers only through its supertype, and the raw box accepts
the raw crate. -/
theorem ReachableFrom.acceptsThroughSupertypes_bounds_crate :
    let int : Descriptor := .leaf ⟨0, []⟩ (.ofDeclaration (.primitive .int))
    let expected : Carrier Unit := ⟨⟨⟨1, []⟩, .ofDeclaration box, [int], false⟩, ()⟩
    let candidate : Carrier Nat := ⟨⟨⟨2, []⟩, .ofDeclaration crate, [int, int], false⟩, 7⟩
    ReachableFrom standard crates
      ∧ crates.IsHandle (.ofDeclaration box) ∧ crates.IsHandle (.ofDeclaration crate)
      ∧ expected.descriptor.accepts candidate.descriptor = false
      ∧ expected.descriptor.acceptsThroughSupertypes crates.scope
        (candidate.withoutPayload ⟨3, []⟩) = true
      ∧ RawType.accepts (.ofDeclaration box) (.ofDeclaration crate) = true
      ∧ expected.descriptor.acceptsThroughSupertypes crates.scope
        (expected.withoutPayload ⟨3, []⟩) = true := by
  intro int expected candidate
  have refused : expected.descriptor.accepts candidate.descriptor = false := by cbv
  have accepted : expected.descriptor.acceptsThroughSupertypes crates.scope
      (candidate.withoutPayload ⟨3, []⟩) = true := by
    let above : Descriptor := ⟨⟨3, [0]⟩, .ofDeclaration box, [int], false⟩
    have known : (candidate.withoutPayload ⟨3, []⟩).knownSupertypes crates.scope = [above] := rfl
    have new : [candidate.withoutPayload ⟨3, []⟩].any (· == above) = false := rfl
    have accepts : expected.descriptor.accepts above = true := rfl
    rw [Descriptor.acceptsThroughSupertypes, Descriptor.acceptsAbove_cons List.any_nil, known,
      List.nil_append, Descriptor.acceptsAbove_cons new, accepts, Bool.true_or, Bool.or_true]
  have bounds := reachableFrom_crates.acceptsThroughSupertypes_bounds expected candidate ⟨3, []⟩
    isHandle_box isHandle_crate
  have self := reachableFrom_crates.acceptsThroughSupertypes_bounds expected expected ⟨3, []⟩
    isHandle_box isHandle_box
  exact ⟨reachableFrom_crates, isHandle_box, isHandle_crate, refused, accepted, bounds.1 accepted,
    self.2 expected.descriptor.accepts_self⟩

end Registry

end GenericTypes
