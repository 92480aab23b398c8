import GenericTypes.Descriptor.Fit
import GenericTypes.Proofs.Descriptor.Search
import GenericTypes.Proofs.RawType.Subtyping

/-! # The three ways to fit

How a candidate fits is decided by the raw types of the two descriptors, by the numbers of their
arguments and by the raw types of the arguments, position by position and in any order: the worst
position decides. So the fit is exact if all expected arguments accept the candidate's, it is
contravariant if all pairs of arguments accept each other in one way or the other and some only
backwards, and there is none otherwise. As acceptance of raw types is a partial order, so is exact
fit up to what is inside the arguments. -/

namespace GenericTypes

/-- Whether one of two raw types accepts the other. -/
def RawType.IsComparable (left right : RawType) : Prop :=
  left.accepts right = true ∨ right.accepts left = true

namespace Fit

variable {fits : List Fit} {expected actual : RawType}

/-- The worse one of two fits is exact if both are. -/
theorem worse_eq_exact_iff {first second : Fit} :
    first.worse second = exact ↔ first = exact ∧ second = exact := by
  cases first <;> cases second <;> decide

/-- The worse one of two fits is none at all if one of them is. -/
theorem worse_eq_incompatible_iff {first second : Fit} :
    first.worse second = incompatible ↔ first = incompatible ∨ second = incompatible := by
  cases first <;> cases second <;> decide

/-- The worst one of some fits is exact if all are. -/
theorem foldr_worse_eq_exact_iff :
    fits.foldr worse exact = exact ↔ ∀ fit ∈ fits, fit = exact := by
  induction fits with
  | nil => exact iff_of_true rfl (List.forall_mem_nil _)
  | cons fit rest ih => rw [List.foldr_cons, worse_eq_exact_iff, ih, List.forall_mem_cons]

/-- The worst one of some fits is none at all if one of them is, wherever it stands. -/
theorem foldr_worse_eq_incompatible_iff :
    fits.foldr worse exact = incompatible ↔ incompatible ∈ fits := by
  induction fits with
  | nil => exact iff_of_false (by decide) List.not_mem_nil
  | cons fit rest ih =>
    rw [List.foldr_cons, worse_eq_incompatible_iff, ih, List.mem_cons, eq_comm]

/-- An argument fits exactly if it is accepted. -/
theorem ofArguments_eq_exact_iff :
    ofArguments expected actual = exact ↔ expected.accepts actual = true := by
  rw [ofArguments]
  split
  · rename_i accepts
    exact iff_of_true rfl accepts
  · rename_i refused
    exact iff_of_false (by split <;> decide) refused

/-- An argument does not fit if neither raw type accepts the other. -/
theorem ofArguments_eq_incompatible_iff :
    ofArguments expected actual = incompatible ↔ ¬expected.IsComparable actual := by
  rw [ofArguments, RawType.IsComparable]
  split
  · rename_i accepts
    exact iff_of_false (by decide) (not_not_intro (.inl accepts))
  · rename_i refused
    split
    · rename_i backwards
      exact iff_of_false (by decide) (not_not_intro (.inr backwards))
    · rename_i apart
      exact iff_of_true rfl (not_or.2 ⟨refused, apart⟩)

end Fit

namespace Descriptor

variable {expected candidate left right : Descriptor}

/-- Whether the raw type of a candidate is accepted, the numbers of arguments are the same, and the
raw types of the arguments are related in every position. -/
structure FitsBy (related : RawType → RawType → Prop) (expected candidate : Descriptor) :
    Prop where
  /-- The raw type is accepted. -/
  raw : expected.raw.accepts candidate.raw = true
  /-- There are as many arguments. -/
  arity : expected.arguments.length = candidate.arguments.length
  /-- Arguments in the same position are related. -/
  arguments : ∀ index first second, expected.argument? index = some first →
    candidate.argument? index = some second → related first.raw second.raw

/-- How the arguments of a candidate fit, position by position. -/
def argumentFits (expected candidate : Descriptor) : List Fit :=
  List.zipWith (fun first second => Fit.ofArguments first.raw second.raw)
    expected.arguments candidate.arguments

/-- The fits of arguments are those of arguments in the same position. -/
theorem mem_argumentFits_iff {fit : Fit} :
    fit ∈ expected.argumentFits candidate ↔
      ∃ index first second, expected.argument? index = some first
        ∧ candidate.argument? index = some second
        ∧ Fit.ofArguments first.raw second.raw = fit := by
  rw [List.mem_iff_getElem?]
  simp only [argumentFits, List.getElem?_zipWith_eq_some, argument?]

/-- The worst argument decides how a candidate fits, if its raw type and the number of its arguments
do. -/
theorem fit_eq_foldr (raw : expected.raw.accepts candidate.raw = true)
    (arity : expected.arguments.length = candidate.arguments.length) :
    expected.fit candidate = (expected.argumentFits candidate).foldr Fit.worse .exact := by
  rw [fit, raw, arity, beq_self_eq_true]
  rfl

/-- A candidate does not fit if its raw type or the number of its arguments does not. -/
theorem fit_eq_incompatible (differs : ¬(expected.raw.accepts candidate.raw = true
    ∧ expected.arguments.length = candidate.arguments.length)) :
    expected.fit candidate = .incompatible := by
  rw [fit, if_neg]
  rwa [Bool.and_eq_true, beq_iff_eq]

/-- A candidate fits exactly if its raw type and the raw types of its arguments are accepted. -/
theorem fit_eq_exact_iff :
    expected.fit candidate = .exact ↔
      FitsBy (fun first second => first.accepts second = true) expected candidate := by
  by_cases fits : expected.raw.accepts candidate.raw = true
      ∧ expected.arguments.length = candidate.arguments.length
  · rw [fit_eq_foldr fits.1 fits.2, Fit.foldr_worse_eq_exact_iff]
    constructor
    · intro exact
      refine ⟨fits.1, fits.2, fun index first second isFirst isSecond => ?_⟩
      have inside := mem_argumentFits_iff.2 ⟨index, first, second, isFirst, isSecond, rfl⟩
      exact Fit.ofArguments_eq_exact_iff.1 (exact _ inside)
    · intro accepts fit mem
      obtain ⟨index, first, second, isFirst, isSecond, rfl⟩ := mem_argumentFits_iff.1 mem
      exact Fit.ofArguments_eq_exact_iff.2 (accepts.arguments index first second isFirst isSecond)
  · rw [fit_eq_incompatible fits]
    exact iff_of_false (by decide) fun accepts => fits ⟨accepts.raw, accepts.arity⟩

/-- A candidate does not fit unless its raw type is accepted and the raw types of its arguments are
comparable with the expected ones. -/
theorem fit_eq_incompatible_iff :
    expected.fit candidate = .incompatible ↔ ¬FitsBy RawType.IsComparable expected candidate := by
  by_cases fits : expected.raw.accepts candidate.raw = true
      ∧ expected.arguments.length = candidate.arguments.length
  · rw [fit_eq_foldr fits.1 fits.2, Fit.foldr_worse_eq_incompatible_iff, mem_argumentFits_iff]
    constructor
    · rintro ⟨index, first, second, isFirst, isSecond, apart⟩ comparable
      exact Fit.ofArguments_eq_incompatible_iff.1 apart
        (comparable.arguments index first second isFirst isSecond)
    · intro apart
      by_contra none
      refine apart ⟨fits.1, fits.2, fun index first second isFirst isSecond => ?_⟩
      by_contra incomparable
      exact none ⟨index, first, second, isFirst, isSecond,
        Fit.ofArguments_eq_incompatible_iff.2 incomparable⟩
  · rw [fit_eq_incompatible fits]
    exact iff_of_true rfl fun comparable => fits ⟨comparable.raw, comparable.arity⟩

/-- A candidate fits the other way round if the raw types of its arguments are comparable with the
expected ones and some of them accept those only backwards. -/
theorem fit_eq_contravariant_iff :
    expected.fit candidate = .contravariant ↔
      FitsBy RawType.IsComparable expected candidate
        ∧ ∃ index first second, expected.argument? index = some first
          ∧ candidate.argument? index = some second
          ∧ first.raw.accepts second.raw = false ∧ second.raw.accepts first.raw = true := by
  have neither : expected.fit candidate = .contravariant ↔
      ¬expected.fit candidate = .incompatible ∧ ¬expected.fit candidate = .exact := by
    cases expected.fit candidate <;> decide
  rw [neither, fit_eq_incompatible_iff, fit_eq_exact_iff, not_not]
  refine and_congr_right fun comparable => ?_
  constructor
  · intro inexact
    by_contra none
    -- a position that is not accepted is accepted backwards, as all positions are comparable
    refine inexact ⟨comparable.raw, comparable.arity,
      fun index first second isFirst isSecond => ?_⟩
    by_contra refused
    have backwards :=
      (comparable.arguments index first second isFirst isSecond).resolve_left refused
    exact none ⟨index, first, second, isFirst, isSecond, eq_false_of_ne_true refused, backwards⟩
  · rintro ⟨index, first, second, isFirst, isSecond, refused, -⟩ accepts
    exact ne_true_of_eq_false refused (accepts.arguments index first second isFirst isSecond)

/-- An expected descriptor accepts the candidates that fit exactly. -/
theorem accepts_iff_fitsBy :
    expected.accepts candidate = true ↔
      FitsBy (fun first second => first.accepts second = true) expected candidate := by
  rw [accepts, beq_iff_eq, fit_eq_exact_iff]

/-- A lenient comparison accepts the candidates with comparable arguments. -/
theorem acceptsLeniently_iff_fitsBy :
    expected.acceptsLeniently candidate = true ↔
      FitsBy RawType.IsComparable expected candidate := by
  have fits : expected.acceptsLeniently candidate = true ↔
      ¬expected.fit candidate = .incompatible := by
    rw [acceptsLeniently]
    cases expected.fit candidate <;> decide
  rw [fits, fit_eq_incompatible_iff, not_not]

/-- Where there are as many arguments, there is one in every position of an argument. -/
theorem exists_argument?_of_arity (arity : left.arguments.length = right.arguments.length)
    {index : Nat} {argument : Descriptor} (isArgument : left.argument? index = some argument) :
    ∃ other, right.argument? index = some other := by
  obtain ⟨inside, -⟩ := List.getElem?_eq_some_iff.1 isArgument
  exact ⟨_, List.getElem?_eq_getElem (arity ▸ inside)⟩

/-- Arguments are comparable in both directions. -/
theorem FitsBy.isComparable_symm (fits : FitsBy RawType.IsComparable left right)
    (raw : right.raw.accepts left.raw = true) : FitsBy RawType.IsComparable right left where
  raw := raw
  arity := fits.arity.symm
  arguments := fun index first second isFirst isSecond =>
    (fits.arguments index second first isSecond isFirst).symm

end Descriptor

/-! ## Order -/

/-- A raw type accepts itself, and every raw type with its name. -/
theorem RawType.accepts_of_beq {left right : RawType} (same : (left == right) = true) :
    left.accepts right = true := by
  rw [accepts, same, Bool.true_or]

namespace Registry

variable {registry : Registry}

namespace Populated

variable {first second third : RawType}

/-- What accepts a raw type accepts what this raw type accepts. -/
theorem rawAccepts_trans (populated : registry.Populated) (firstHandle : registry.IsHandle first)
    (secondHandle : registry.IsHandle second) (thirdHandle : registry.IsHandle third)
    (upper : first.accepts second = true) (lower : second.accepts third = true) :
    first.accepts third = true := by
  rw [populated.isHandle_iff] at firstHandle secondHandle thirdHandle
  rw [populated.rawAccepts_iff_below firstHandle secondHandle] at upper
  rw [populated.rawAccepts_iff_below secondHandle thirdHandle] at lower
  rw [populated.rawAccepts_iff_below firstHandle thirdHandle]
  exact lower.trans upper

/-- Raw types that accept each other are the same. -/
theorem rawAccepts_antisymm (populated : registry.Populated)
    (firstHandle : registry.IsHandle first) (secondHandle : registry.IsHandle second)
    (forth : first.accepts second = true) (back : second.accepts first = true) :
    first = second := by
  rw [populated.isHandle_iff] at firstHandle secondHandle
  rw [populated.rawAccepts_iff_below firstHandle secondHandle] at forth
  rw [populated.rawAccepts_iff_below secondHandle firstHandle] at back
  rcases Relation.reflTransGen_iff_eq_or_transGen.1 forth with same | forth
  · exact same
  · rcases Relation.reflTransGen_iff_eq_or_transGen.1 back with same | back
    · exact same.symm
    · -- steps up from the one to the other and back would go on forever
      have noCycle := populated.wellFounded_directlyBelow.transGen.asymm
      exact absurd (Relation.transGen_swap.2 back)
        (noCycle.asymm _ _ (Relation.transGen_swap.2 forth))

end Populated

section Handles

variable {first second third : Descriptor}
  (firstHandles : ∀ node ∈ first.nodes, registry.IsHandle node.raw)
  (secondHandles : ∀ node ∈ second.nodes, registry.IsHandle node.raw)

/-- The raw type of an argument is a raw type of the registry if those of all nodes are. -/
theorem isHandle_of_argument? {descriptor argument : Descriptor}
    (handles : ∀ node ∈ descriptor.nodes, registry.IsHandle node.raw) {index : Nat}
    (isArgument : descriptor.argument? index = some argument) : registry.IsHandle argument.raw := by
  have inside := (Descriptor.forall_nodes_iff.1 handles).2 argument
    (List.mem_of_getElem? isArgument)
  exact (Descriptor.forall_nodes_iff.1 inside).1

include firstHandles secondHandles

/-- What accepts a descriptor accepts what this descriptor accepts: every argument is compared with
the one in the middle. -/
theorem Populated.accepts_trans (populated : registry.Populated)
    (thirdHandles : ∀ node ∈ third.nodes, registry.IsHandle node.raw)
    (upper : first.accepts second = true) (lower : second.accepts third = true) :
    first.accepts third = true := by
  rw [Descriptor.accepts_iff_fitsBy] at upper lower ⊢
  have root := populated.rawAccepts_trans (Descriptor.forall_nodes_iff.1 firstHandles).1
    (Descriptor.forall_nodes_iff.1 secondHandles).1 (Descriptor.forall_nodes_iff.1 thirdHandles).1
    upper.raw lower.raw
  refine ⟨root, upper.arity.trans lower.arity, fun index left right isLeft isRight => ?_⟩
  obtain ⟨middle, isMiddle⟩ := Descriptor.exists_argument?_of_arity upper.arity isLeft
  exact populated.rawAccepts_trans (isHandle_of_argument? firstHandles isLeft)
    (isHandle_of_argument? secondHandles isMiddle) (isHandle_of_argument? thirdHandles isRight)
    (upper.arguments index left middle isLeft isMiddle)
    (lower.arguments index middle right isMiddle isRight)

/-- Descriptors that accept each other have the same raw type and arguments of the same raw
types. -/
theorem Populated.raw_eq_of_accepts (populated : registry.Populated)
    (forth : first.accepts second = true) (back : second.accepts first = true) :
    first.raw = second.raw
      ∧ first.arguments.map Descriptor.raw = second.arguments.map Descriptor.raw := by
  rw [Descriptor.accepts_iff_fitsBy] at forth back
  refine ⟨populated.rawAccepts_antisymm (Descriptor.forall_nodes_iff.1 firstHandles).1
    (Descriptor.forall_nodes_iff.1 secondHandles).1 forth.raw back.raw, ?_⟩
  refine List.ext_getElem (by simpa using forth.arity) fun index inFirst inSecond => ?_
  rw [List.length_map] at inFirst inSecond
  have isLeft : first.argument? index = some first.arguments[index] :=
    List.getElem?_eq_getElem inFirst
  have isRight : second.argument? index = some second.arguments[index] :=
    List.getElem?_eq_getElem inSecond
  rw [List.getElem_map, List.getElem_map]
  exact populated.rawAccepts_antisymm (isHandle_of_argument? firstHandles isLeft)
    (isHandle_of_argument? secondHandles isRight)
    (forth.arguments index _ _ isLeft isRight) (back.arguments index _ _ isRight isLeft)

end Handles

end Registry

namespace Descriptor

/-- A descriptor accepts itself. -/
theorem accepts_self (descriptor : Descriptor) : descriptor.accepts descriptor = true := by
  refine accepts_iff_fitsBy.2 ⟨RawType.accepts_of_beq (RawType.beq_iff.2 rfl), rfl, ?_⟩
  intro index first second isFirst isSecond
  cases isFirst.symm.trans isSecond
  exact RawType.accepts_of_beq (RawType.beq_iff.2 rfl)

/-- Descriptors of the same raw type accept each other leniently, or neither does. -/
theorem acceptsLeniently_comm {left right : Descriptor} (same : (left.raw == right.raw) = true) :
    left.acceptsLeniently right = right.acceptsLeniently left := by
  rw [Bool.eq_iff_iff, acceptsLeniently_iff_fitsBy, acceptsLeniently_iff_fitsBy]
  have reversed : (right.raw == left.raw) = true := RawType.beq_iff.2 (RawType.beq_iff.1 same).symm
  exact ⟨fun fits => fits.isComparable_symm (RawType.accepts_of_beq reversed),
    fun fits => fits.isComparable_symm (RawType.accepts_of_beq same)⟩

end Descriptor

namespace Registry

/-- **The three ways to fit.** In a registry that calls lead to from the standard one, take
descriptors of raw types of the registry. The fit of one for another is exact if its raw type, the
number of its arguments and the raw types of all its arguments fit; it is contravariant if the raw
type and the number of arguments fit, in every position one of the raw types accepts the other, and
in some position only backwards; and there is none in all other cases. So exact fit is reflexive
and transitive, it is mutual only for the same raw types at the root and in every position, and
for descriptors of the same raw type a lenient comparison has no direction. -/
theorem ReachableFrom.fit_iff_and_accepts_preorder {registry : Registry}
    (reached : ReachableFrom standard registry) {first second third : Descriptor}
    (firstHandles : ∀ node ∈ first.nodes, registry.IsHandle node.raw)
    (secondHandles : ∀ node ∈ second.nodes, registry.IsHandle node.raw)
    (thirdHandles : ∀ node ∈ third.nodes, registry.IsHandle node.raw) :
    (first.fit second = .exact ↔
        Descriptor.FitsBy (fun left right => left.accepts right = true) first second)
      ∧ (first.fit second = .contravariant ↔
        Descriptor.FitsBy RawType.IsComparable first second
          ∧ ∃ index left right, first.argument? index = some left
            ∧ second.argument? index = some right
            ∧ left.raw.accepts right.raw = false ∧ right.raw.accepts left.raw = true)
      ∧ (first.fit second = .incompatible ↔
        ¬Descriptor.FitsBy RawType.IsComparable first second)
      ∧ first.accepts first = true
      ∧ (first.accepts second = true → second.accepts third = true → first.accepts third = true)
      ∧ (first.accepts second = true → second.accepts first = true → first.raw = second.raw
        ∧ first.arguments.map Descriptor.raw = second.arguments.map Descriptor.raw)
      ∧ ((first.raw == second.raw) = true →
        first.acceptsLeniently second = second.acceptsLeniently first) :=
  ⟨Descriptor.fit_eq_exact_iff, Descriptor.fit_eq_contravariant_iff,
    Descriptor.fit_eq_incompatible_iff, first.accepts_self,
    reached.populated.accepts_trans firstHandles secondHandles thirdHandles,
    reached.populated.raw_eq_of_accepts firstHandles secondHandles,
    Descriptor.acceptsLeniently_comm⟩

/-- A box of what can be cloned accepts a box of arrays of numbers, which accepts it only
leniently. -/
theorem ReachableFrom.fit_iff_and_accepts_preorder_boxes :
    let cloneable : Declaration := .interface "java.lang.Cloneable" [] []
    let wide : Descriptor :=
      ⟨⟨0, []⟩, .ofDeclaration box, [.leaf ⟨0, [0]⟩ (.ofDeclaration cloneable)], false⟩
    let narrow : Descriptor :=
      ⟨⟨1, []⟩, .ofDeclaration box, [.leaf ⟨1, [0]⟩ ⟨.primitive .int, 1⟩], false⟩
    ReachableFrom standard crates
      ∧ (∀ node ∈ wide.nodes, crates.IsHandle node.raw)
      ∧ (∀ node ∈ narrow.nodes, crates.IsHandle node.raw)
      ∧ wide.fit narrow = .exact ∧ narrow.fit wide = .contravariant
      ∧ wide.accepts wide = true
      ∧ Descriptor.FitsBy (fun left right => left.accepts right = true) wide narrow
      ∧ narrow.acceptsLeniently wide = wide.acceptsLeniently narrow := by
  intro cloneable wide narrow
  have populated := reachableFrom_crates.populated
  have cloneableHandle : crates.IsHandle (.ofDeclaration cloneable) :=
    populated.isHandle_iff.2 (populated.arrayInterface_mem _ List.mem_cons_self)
  have intsHandle : crates.IsHandle ⟨.primitive .int, 1⟩ :=
    populated.isHandle_iff.2 (populated.primitive_mem .int)
  have wideHandles : ∀ node ∈ wide.nodes, crates.IsHandle node.raw :=
    Descriptor.forall_nodes_iff.2 ⟨isHandle_box, List.forall_mem_singleton.2
      (Descriptor.forall_nodes_iff.2 ⟨cloneableHandle, List.forall_mem_nil _⟩)⟩
  have narrowHandles : ∀ node ∈ narrow.nodes, crates.IsHandle node.raw :=
    Descriptor.forall_nodes_iff.2 ⟨isHandle_box, List.forall_mem_singleton.2
      (Descriptor.forall_nodes_iff.2 ⟨intsHandle, List.forall_mem_nil _⟩)⟩
  have exact : wide.fit narrow = .exact := rfl
  have contravariant : narrow.fit wide = .contravariant := rfl
  obtain ⟨exact_iff, -, -, self, -, -, lenient⟩ :=
    reachableFrom_crates.fit_iff_and_accepts_preorder wideHandles narrowHandles wideHandles
  exact ⟨reachableFrom_crates, wideHandles, narrowHandles, exact, contravariant, self,
    exact_iff.1 exact, (lenient rfl).symm⟩

end Registry

end GenericTypes
