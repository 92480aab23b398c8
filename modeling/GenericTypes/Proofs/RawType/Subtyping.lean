import Mathlib.Logic.Relation
import Mathlib.Order.WellFounded
import GenericTypes.Proofs.Registry.AnswerNames
import GenericTypes.RawType.Assignable

/-! # Subtyping of raw types

Assignability of raw types is a test with many cases; subtyping is the closure of a relation with
four rules. Both are the same on the raw types of a populated registry. The test is first brought to
one form, `accepts_iff`: the number of dimensions is the same and the elements fit, or it is smaller
and the element accepts arrays. The test then follows every step of the relation backwards, and
every case of the test is a path of such steps. Since each step loses dimensions or climbs a finite
tree of declarations, subtyping is a partial order. -/

namespace GenericTypes

namespace Registry

/-- One step up from a raw type. -/
inductive DirectlyBelow (registry : Registry) : RawType → RawType → Prop
  /-- A class or an interface is below the types that it was declared with. Other raw types were
  declared with none. -/
  | parent {sub above : RawType} (mem : above ∈ sub.parents) : DirectlyBelow registry sub above
  /-- An interface is below the root. -/
  | top {sub : RawType} (isInterface : sub.isInterface = true) :
      DirectlyBelow registry sub registry.top
  /-- Arrays are below each other as their elements are. -/
  | element {sub above : RawType} (plain : sub.isArray = false)
      (step : DirectlyBelow registry sub above) (dimensions : Nat) :
      DirectlyBelow registry (sub.arrayOf (dimensions + 1)) (above.arrayOf (dimensions + 1))
  /-- An array of any element is an object and implements the interfaces of arrays. -/
  | array (element : Declaration) {above : RawType}
      (isAbove : above = registry.top ∨ ∃ name ∈ arrayInterfaces, registry.find name = .ok above)
      (dimensions : Nat) :
      DirectlyBelow registry ⟨element, dimensions + 1⟩ (above.arrayOf dimensions)

/-- Subtyping: any number of steps up. -/
def Below (registry : Registry) : RawType → RawType → Prop :=
  Relation.ReflTransGen registry.DirectlyBelow

variable {registry : Registry} {target source : Declaration} {sub above : RawType}

/-! ## Declared types -/

/-- A type that was declared with a parent is not primitive. -/
theorem isPrimitive_eq_false_of_mem_parents {parent child : Declaration}
    (mem : parent ∈ child.parents) : child.isPrimitive = false := by
  cases child with
  | primitive type => cases mem
  | top name => rfl
  | ordinary name parameters superclass interfaces => rfl
  | interface name parameters interfaces => rfl

namespace WellFormed

/-- A type above a declared type is a class or an interface. -/
theorem parent_isPrimitive_eq_false (wellFormed : registry.WellFormed)
    (mem : source ∈ registry.declared) {parent : Declaration} (isParent : parent ∈ source.parents) :
    parent.isPrimitive = false := by
  obtain ⟨supertype, named, rfl⟩ := List.mem_map.1 isParent
  rcases List.mem_append.1 named with named | named
  · have isClass := wellFormed.superclass_isClass source mem supertype (Option.mem_toList.1 named)
    cases eq : supertype.declaration with
    | primitive type =>
      rw [eq] at isClass
      cases isClass
    | _ => rfl
  · have isInterface := wellFormed.interface_isInterface source mem supertype named
    cases eq : supertype.declaration with
    | primitive type =>
      rw [eq] at isInterface
      cases isInterface
    | _ => rfl

/-- A declared type accepts itself, and beyond that a type that is not primitive accepts the types
of which it is the root or an ancestor. -/
theorem accepts_iff (wellFormed : registry.WellFormed) (targetMem : target ∈ registry.declared)
    (sourceMem : source ∈ registry.declared) :
    target.accepts source = true ↔ target = source
      ∨ target.isPrimitive = false ∧ source.isPrimitive = false
        ∧ (target.isTop = true ∨ ∃ parent ∈ source.parents, target.accepts parent = true) := by
  rw [Declaration.accepts_eq]
  simp only [Bool.or_eq_true, beq_iff_eq, Bool.and_eq_true, Bool.not_eq_true', List.any_eq_true,
    and_assoc]
  constructor
  · rintro (same | general)
    · exact .inl (wellFormed.eq_of_name_eq targetMem sourceMem same)
    · exact .inr general
  · rintro (rfl | general)
    · exact .inl rfl
    · exact .inr general

/-- What accepts a type without parents is that type or the root. -/
theorem eq_or_isTop_of_accepts (wellFormed : registry.WellFormed)
    (targetMem : target ∈ registry.declared) (sourceMem : source ∈ registry.declared)
    (none : source.parents = []) (accepts : target.accepts source = true) :
    target = source ∨ target.isTop = true := by
  -- of the ways to accept a type only the last one needs a parent
  rcases (wellFormed.accepts_iff targetMem sourceMem).1 accepts with rfl | ⟨-, -, top | above⟩
  · exact .inl rfl
  · exact .inr top
  · rw [none] at above
    obtain ⟨parent, mem, -⟩ := above
    cases mem

/-- What accepts the root is the root. -/
theorem isTop_of_accepts_top (wellFormed : registry.WellFormed)
    (targetMem : target ∈ registry.declared)
    (accepts : target.accepts (.top registry.topName) = true) : target.isTop = true := by
  rcases wellFormed.eq_or_isTop_of_accepts targetMem wellFormed.top_mem rfl accepts with rfl | top
  · rfl
  · exact top

/-- What accepts a type above a declared type accepts the declared type. -/
theorem accepts_of_mem_parents (wellFormed : registry.WellFormed)
    (targetMem : target ∈ registry.declared) (sourceMem : source ∈ registry.declared)
    {parent : Declaration} (isParent : parent ∈ source.parents)
    (accepts : target.accepts parent = true) : target.accepts source = true := by
  have parentMem := wellFormed.parent_mem source sourceMem parent isParent
  have parentKind := wellFormed.parent_isPrimitive_eq_false sourceMem isParent
  have targetKind : target.isPrimitive = false := by
    rcases (wellFormed.accepts_iff targetMem parentMem).1 accepts with rfl | ⟨kind, -, -⟩
    · exact parentKind
    · exact kind
  rw [wellFormed.accepts_iff targetMem sourceMem]
  exact .inr ⟨targetKind, isPrimitive_eq_false_of_mem_parents isParent,
    .inr ⟨parent, isParent, accepts⟩⟩

/-- The root accepts every type that is not primitive. -/
theorem accepts_of_isTop (wellFormed : registry.WellFormed)
    (targetMem : target ∈ registry.declared) (sourceMem : source ∈ registry.declared)
    (top : target.isTop = true) (kind : source.isPrimitive = false) :
    target.accepts source = true := by
  rw [wellFormed.accepts_iff targetMem sourceMem]
  refine .inr ⟨?_, kind, .inl top⟩
  rw [wellFormed.eq_top target targetMem top]
  rfl

/-- Every declared type that is not primitive is below the root: the superclasses of a class end
there, and an interface is directly below it. -/
theorem below_top (wellFormed : registry.WellFormed) (sourceMem : source ∈ registry.declared)
    (kind : source.isPrimitive = false) :
    registry.Below (.ofDeclaration source) registry.top := by
  induction source using Declaration.inductionOnParents with
  | step child ih =>
    cases child with
    | top name =>
      rw [wellFormed.eq_top _ sourceMem rfl]
      exact .refl
    | primitive type => cases kind
    | ordinary name parameters superclass interfaces =>
      -- the chain goes on with the superclass, which is smaller
      have isParent : superclass.declaration
          ∈ (Declaration.ordinary name parameters superclass interfaces).parents :=
        List.mem_cons_self
      have parentMem := wellFormed.parent_mem _ sourceMem _ isParent
      have parentKind := wellFormed.parent_isPrimitive_eq_false sourceMem isParent
      refine .head (.parent ?_) (ih _ isParent parentMem parentKind)
      exact List.mem_map_of_mem (List.mem_cons_self (a := superclass))
    | interface name parameters interfaces => exact .single (.top rfl)

end WellFormed

/-! ## Steps up

What a step up can be is said once for raw types without dimensions and once for arrays. -/

/-- A step up from a raw type without dimensions leads to a type that it was declared with, or from
an interface to the root. -/
theorem DirectlyBelow.cases_of_plain (step : registry.DirectlyBelow sub above)
    (plain : sub.isArray = false) :
    (∃ parent ∈ sub.element.parents, above = .ofDeclaration parent)
      ∨ sub.element.isInterface = true ∧ above = registry.top := by
  cases step with
  | parent mem =>
    rw [RawType.parents, RawType.supertypes, plain, if_neg Bool.false_ne_true] at mem
    obtain ⟨supertype, named, rfl⟩ := List.mem_map.1 mem
    exact .inl ⟨supertype.declaration, List.mem_map_of_mem named, rfl⟩
  | top isInterface =>
    rw [RawType.isInterface, Bool.and_eq_true] at isInterface
    exact .inr ⟨isInterface.2, rfl⟩
  | element _ _ dimensions =>
    rw [RawType.isArray, RawType.dimensions_arrayOf, bne_eq_false_iff_eq] at plain
    omega
  | array element _ dimensions =>
    rw [RawType.isArray, bne_eq_false_iff_eq] at plain
    cases plain

/-- A step up from an array is a step up from its innermost element, or takes a dimension away. -/
theorem DirectlyBelow.cases_of_isArray (step : registry.DirectlyBelow sub above)
    (isArray : sub.isArray = true) :
    (∃ inner higher dimensions, inner.isArray = false ∧ registry.DirectlyBelow inner higher
        ∧ sub = inner.arrayOf (dimensions + 1) ∧ above = higher.arrayOf (dimensions + 1))
      ∨ ∃ element higher dimensions,
        (higher = registry.top ∨ ∃ name ∈ arrayInterfaces, registry.find name = .ok higher)
        ∧ sub = ⟨element, dimensions + 1⟩ ∧ above = higher.arrayOf dimensions := by
  cases step with
  | parent mem =>
    -- arrays were declared with nothing, and are no interfaces
    rw [RawType.parents, RawType.supertypes, if_pos isArray] at mem
    cases mem
  | top isInterface =>
    rw [RawType.isInterface, isArray] at isInterface
    cases isInterface
  | element plain step dimensions => exact .inl ⟨_, _, dimensions, plain, step, rfl, rfl⟩
  | array element isAbove dimensions =>
    exact .inr ⟨element, _, dimensions, isAbove, rfl, rfl⟩

/-- A step remains a step when both sides are wrapped into further arrays. -/
theorem DirectlyBelow.arrayOf (step : registry.DirectlyBelow sub above) (dimensions : Nat) :
    registry.DirectlyBelow (sub.arrayOf dimensions) (above.arrayOf dimensions) := by
  cases dimensions with
  | zero =>
    rw [RawType.arrayOf_zero, RawType.arrayOf_zero]
    exact step
  | succ dimensions =>
    cases step with
    | parent mem =>
      -- what was declared with a parent is no array, so its arrays are covered by `element`
      refine .element ?_ (.parent mem) dimensions
      cases isArray : sub.isArray with
      | false => rfl
      | true =>
        rw [RawType.parents, RawType.supertypes, if_pos isArray] at mem
        cases mem
    | top isInterface =>
      refine .element ?_ (.top isInterface) dimensions
      rw [RawType.isInterface, Bool.and_eq_true, Bool.not_eq_true'] at isInterface
      exact isInterface.1
    | element plain step inner =>
      rw [RawType.arrayOf_arrayOf, RawType.arrayOf_arrayOf, Nat.add_right_comm, ← Nat.add_assoc]
      exact .element plain step _
    | array element isAbove inner =>
      have wider := DirectlyBelow.array element isAbove (inner + (dimensions + 1))
      rw [RawType.arrayOf_arrayOf]
      rwa [Nat.add_right_comm] at wider

/-- Subtyping carries over to arrays. -/
theorem Below.arrayOf (below : registry.Below sub above) (dimensions : Nat) :
    registry.Below (sub.arrayOf dimensions) (above.arrayOf dimensions) :=
  Relation.ReflTransGen.lift (RawType.arrayOf · dimensions)
    (fun _ _ step => DirectlyBelow.arrayOf step dimensions) sub above below

/-! ## The tests for raw types -/

namespace Populated

/-- What accepts arrays of any kind is the root or an interface of arrays. -/
theorem acceptsArrays_iff (populated : registry.Populated) (mem : target ∈ registry.declared) :
    target.acceptsArrays = true ↔ .ofDeclaration target = registry.top
      ∨ ∃ name ∈ arrayInterfaces, registry.find name = .ok (.ofDeclaration target) := by
  rw [Declaration.acceptsArrays, Bool.or_eq_true, populated.isTop_iff mem, List.contains_iff_mem]
  constructor
  · rintro (rfl | known)
    · exact .inl rfl
    · exact .inr ⟨_, known, populated.find_name mem⟩
  · rintro (isTop | ⟨name, known, found⟩)
    · exact .inl (congrArg RawType.element isTop)
    · rw [← populated.name_of_find found] at known
      exact .inr known

/-- A raw type that is directly above every array is declared, and what accepts it accepts arrays of
any kind. -/
theorem element_of_isAbove (populated : registry.Populated)
    (isAbove : above = registry.top ∨ ∃ name ∈ arrayInterfaces, registry.find name = .ok above) :
    above.dimensions = 0 ∧ above.element ∈ registry.declared
      ∧ ∀ target ∈ registry.declared, target.accepts above.element = true →
        target.acceptsArrays = true := by
  rcases isAbove with rfl | ⟨name, known, found⟩
  · refine ⟨rfl, populated.top_mem, fun target mem accepts => ?_⟩
    rw [Declaration.acceptsArrays, populated.isTop_of_accepts_top mem accepts, Bool.true_or]
  · -- The interface is the declared one, which extends nothing.
    have mem := populated.arrayInterface_mem name known
    have interface := populated.find_name mem
    rw [Declaration.name, found] at interface
    cases interface
    refine ⟨rfl, mem, fun target targetMem accepts => ?_⟩
    rcases populated.eq_or_isTop_of_accepts targetMem mem rfl accepts with rfl | top
    · rw [Declaration.acceptsArrays, Bool.or_eq_true, List.contains_iff_mem]
      exact .inr known
    · rw [Declaration.acceptsArrays, top, Bool.true_or]

/-- One form of the test: raw types with the same number of dimensions fit as their elements do, and
a raw type with fewer dimensions accepts the arrays that its element accepts. -/
theorem rawAccepts_iff (populated : registry.Populated) {left right : RawType}
    (leftMem : left.element ∈ registry.declared) (rightMem : right.element ∈ registry.declared) :
    left.accepts right = true ↔
      left.dimensions = right.dimensions ∧ left.element.accepts right.element = true
        ∨ left.dimensions < right.dimensions ∧ left.element.acceptsArrays = true := by
  have self : left = right → left.dimensions = right.dimensions
      ∧ left.element.accepts right.element = true := by
    rintro rfl
    exact ⟨rfl, (populated.accepts_iff leftMem rightMem).2 (.inl rfl)⟩
  have same : left.name = right.name ↔ left = right :=
    ⟨populated.eq_of_name_eq leftMem rightMem, congrArg RawType.name⟩
  have plain : left.element.accepts right.element = true → left.element = right.element
      ∨ left.element.isPrimitive = false ∧ right.element.isPrimitive = false := by
    intro accepts
    rcases (populated.accepts_iff leftMem rightMem).1 accepts with eq | ⟨leftKind, rightKind, -⟩
    · exact .inl eq
    · exact .inr ⟨leftKind, rightKind⟩
  rw [RawType.accepts, Bool.or_eq_true, RawType.beq_iff, same]
  constructor
  · rintro (eq | accepts)
    · exact .inl (self eq)
    · -- the four cases of the test, by whether either side is an array
      split at accepts <;> rename_i leftDimensions rightDimensions
      · exact .inl ⟨leftDimensions.trans rightDimensions.symm, accepts⟩
      · exact .inr ⟨by omega, accepts⟩
      · cases accepts
      · split at accepts
        · rw [Bool.and_eq_true] at accepts
          exact .inl ⟨by omega, accepts.2⟩
        · rw [Bool.and_eq_true, decide_eq_true_eq] at accepts
          exact .inr ⟨by omega, accepts.2⟩
  · rintro (⟨dimensions, accepts⟩ | ⟨dimensions, accepts⟩)
    · -- arrays of primitive types fit by their names only, all others by their elements
      rcases plain accepts with eq | ⟨leftKind, rightKind⟩
      · exact .inl (RawType.eq_of_parts eq dimensions)
      · refine .inr ?_
        rw [dimensions]
        cases right.dimensions with
        | zero => exact accepts
        | succ _ => simp [leftKind, rightKind, accepts]
    · refine .inr ?_
      obtain ⟨difference, eq⟩ := Nat.exists_eq_add_of_lt dimensions
      rw [eq]
      cases left.dimensions with
      | zero => exact accepts
      | succ fewer =>
        have different : fewer ≠ fewer + 1 + difference := by omega
        have less : fewer < fewer + 1 + difference := by omega
        simp [different, less, accepts]

/-- The same form for an array as the source. -/
theorem rawAccepts_arrayOf_iff (populated : registry.Populated) {left right : RawType}
    (leftMem : left.element ∈ registry.declared) (rightMem : right.element ∈ registry.declared)
    {dimensions : Nat} :
    left.accepts (right.arrayOf dimensions) = true ↔
      left.dimensions = right.dimensions + dimensions
          ∧ left.element.accepts right.element = true
        ∨ left.dimensions < right.dimensions + dimensions
          ∧ left.element.acceptsArrays = true :=
  populated.rawAccepts_iff leftMem (show (right.arrayOf dimensions).element ∈ _ from rightMem)

/-! ## From the test to the relation -/

/-- What a declared type accepts is below it. -/
theorem below_of_accepts (populated : registry.Populated) (targetMem : target ∈ registry.declared)
    (sourceMem : source ∈ registry.declared) (accepts : target.accepts source = true) :
    registry.Below (.ofDeclaration source) (.ofDeclaration target) := by
  induction source using Declaration.inductionOnParents with
  | step child ih =>
    rcases (populated.accepts_iff targetMem sourceMem).1 accepts with
      rfl | ⟨-, kind, top | ⟨parent, isParent, accepts⟩⟩
    · exact .refl
    · rw [populated.eq_top target targetMem top]
      exact populated.below_top sourceMem kind
    · have parentMem := populated.parent_mem child sourceMem parent isParent
      refine .head (.parent ?_) (ih parent isParent parentMem accepts)
      obtain ⟨supertype, named, rfl⟩ := List.mem_map.1 isParent
      exact List.mem_map_of_mem named

/-- An array is below every type that accepts arrays, wrapped into fewer dimensions: each step
takes one dimension away, and all but the last lead to arrays of the root. -/
theorem below_of_acceptsArrays (populated : registry.Populated)
    (targetMem : target ∈ registry.declared) (accepts : target.acceptsArrays = true)
    (element : Declaration) {fewer more : Nat} (less : fewer < more) :
    registry.Below ((RawType.ofDeclaration element).arrayOf more)
      ((RawType.ofDeclaration target).arrayOf fewer) := by
  induction more generalizing element with
  | zero => exact absurd less (Nat.not_lt_zero _)
  | succ more ih =>
    have wrapped : (RawType.ofDeclaration element).arrayOf (more + 1) = ⟨element, more + 1⟩ :=
      congrArg (RawType.mk element) (Nat.zero_add _)
    rw [wrapped]
    by_cases last : fewer = more
    · -- this step takes the last dimension away that is too many
      subst last
      exact .single (.array element ((populated.acceptsArrays_iff targetMem).1 accepts) fewer)
    · exact .head (.array element (.inl rfl) more) (ih (.top registry.topName) (by omega))

/-! ## From the relation to the test -/

/-- A step up from a declared type leads to a declared type, and what accepts the type above accepts
the type below. -/
theorem accepts_of_directlyBelow (populated : registry.Populated)
    (subMem : sub.element ∈ registry.declared) (plain : sub.isArray = false)
    (step : registry.DirectlyBelow sub above) :
    above.dimensions = 0 ∧ above.element ∈ registry.declared
      ∧ ∀ target ∈ registry.declared, target.accepts above.element = true →
        target.accepts sub.element = true := by
  rcases step.cases_of_plain plain with ⟨parent, isParent, rfl⟩ | ⟨isInterface, rfl⟩
  · exact ⟨rfl, populated.parent_mem _ subMem _ isParent,
      fun target targetMem => populated.accepts_of_mem_parents targetMem subMem isParent⟩
  · refine ⟨rfl, populated.top_mem, fun target targetMem accepts => ?_⟩
    refine populated.accepts_of_isTop targetMem subMem
      (populated.isTop_of_accepts_top targetMem accepts) ?_
    cases eq : sub.element with
    | primitive type =>
      rw [eq] at isInterface
      cases isInterface
    | _ => rfl

/-- A step up leads to a raw type with a declared element, and what accepts the type above accepts
the type below. -/
theorem rawAccepts_of_directlyBelow (populated : registry.Populated)
    (subMem : sub.element ∈ registry.declared) (step : registry.DirectlyBelow sub above) :
    above.element ∈ registry.declared
      ∧ ∀ target : RawType, target.element ∈ registry.declared → target.accepts above = true →
        target.accepts sub = true := by
  cases isArray : sub.isArray with
  | false =>
    obtain ⟨dimensions, aboveMem, elements⟩ :=
      populated.accepts_of_directlyBelow subMem isArray step
    rw [RawType.isArray, bne_eq_false_iff_eq] at isArray
    -- neither side has dimensions, so a target has none and the elements decide
    refine ⟨aboveMem, fun target targetMem accepts => ?_⟩
    rw [populated.rawAccepts_iff targetMem aboveMem] at accepts
    rw [populated.rawAccepts_iff targetMem subMem]
    rcases accepts with ⟨same, accepts⟩ | ⟨fewer, -⟩
    · exact .inl ⟨by omega, elements _ targetMem accepts⟩
    · omega
  | true =>
    rcases step.cases_of_isArray isArray with
      ⟨inner, higher, dimensions, plain, innerStep, rfl, rfl⟩
        | ⟨element, higher, dimensions, isAbove, rfl, rfl⟩
    · rw [RawType.element_arrayOf] at subMem
      obtain ⟨aboveDimensions, aboveMem, elements⟩ :=
        populated.accepts_of_directlyBelow subMem plain innerStep
      rw [RawType.isArray, bne_eq_false_iff_eq] at plain
      refine ⟨aboveMem, fun target targetMem accepts => ?_⟩
      rw [populated.rawAccepts_arrayOf_iff targetMem aboveMem] at accepts
      rw [populated.rawAccepts_arrayOf_iff targetMem subMem]
      rcases accepts with ⟨same, accepts⟩ | ⟨fewer, accepts⟩
      · exact .inl ⟨by omega, elements _ targetMem accepts⟩
      · exact .inr ⟨by omega, accepts⟩
    · obtain ⟨aboveDimensions, aboveMem, arrays⟩ := populated.element_of_isAbove isAbove
      refine ⟨aboveMem, fun target targetMem accepts => ?_⟩
      rw [populated.rawAccepts_arrayOf_iff targetMem aboveMem] at accepts
      rw [populated.rawAccepts_iff targetMem subMem]
      rcases accepts with ⟨same, accepts⟩ | ⟨fewer, accepts⟩
      · exact .inr ⟨by dsimp only; omega, arrays _ targetMem accepts⟩
      · exact .inr ⟨by dsimp only; omega, accepts⟩

end Populated

/-! ## Order -/

/-- How high a declared type stands: the root lowest, and every other type by the size of its
declaration, which holds the types above it. -/
noncomputable def height : Declaration → Nat
  | .top _ => 0
  | declaration => sizeOf declaration

/-- A type that is not the root stands higher than the root. -/
theorem height_of_isTop_eq_false (notTop : source.isTop = false) :
    height source = sizeOf source := by
  cases source with
  | top name => cases notTop
  | primitive type => rfl
  | ordinary name parameters superclass interfaces => rfl
  | interface name parameters interfaces => rfl

/-- No type stands higher than the size of its declaration. -/
theorem height_le (declaration : Declaration) : height declaration ≤ sizeOf declaration := by
  cases declaration with
  | top name => exact Nat.zero_le _
  | primitive type => exact Nat.le_refl _
  | ordinary name parameters superclass interfaces => exact Nat.le_refl _
  | interface name parameters interfaces => exact Nat.le_refl _

/-- A declared type stands lower than the types below it. -/
theorem height_lt_of_mem_parents {parent child : Declaration} (mem : parent ∈ child.parents) :
    height parent < height child := by
  have notTop : child.isTop = false := by
    cases child with
    | top name => cases mem
    | _ => rfl
  calc height parent ≤ sizeOf parent := height_le parent
    _ < sizeOf child := Declaration.sizeOf_lt_of_mem_parents mem
    _ = height child := (height_of_isTop_eq_false notTop).symm

/-- An interface stands higher than the root. -/
theorem height_pos_of_isInterface (isInterface : source.isInterface = true) :
    0 < height source := by
  cases source with
  | interface name parameters interfaces =>
    rw [height_of_isTop_eq_false rfl, Declaration.interface.sizeOf_spec]
    omega
  | _ => cases isInterface

namespace Populated

/-- A step up from a raw type without dimensions leads to one that stands lower. -/
theorem height_lt_of_directlyBelow (step : registry.DirectlyBelow sub above)
    (plain : sub.isArray = false) :
    above.dimensions = 0 ∧ height above.element < height sub.element := by
  rcases step.cases_of_plain plain with ⟨parent, isParent, rfl⟩ | ⟨isInterface, rfl⟩
  · exact ⟨rfl, height_lt_of_mem_parents isParent⟩
  · exact ⟨rfl, height_pos_of_isInterface isInterface⟩

/-- No chain of steps up goes on forever: a step keeps the dimensions and leads to an element that
stands lower, or it takes a dimension away. -/
theorem wellFounded_directlyBelow (populated : registry.Populated) :
    WellFounded fun above sub => registry.DirectlyBelow sub above := by
  -- dimensions come first: a step that takes one away may lead to any element
  let position : RawType → Nat × Nat := fun raw => (raw.dimensions, height raw.element)
  refine Subrelation.wf ?_ (InvImage.wf position (Prod.lex Nat.lt_wfRel Nat.lt_wfRel).wf)
  intro above sub step
  change Prod.Lex (· < ·) (· < ·) (position above) (position sub)
  rw [Prod.lex_def]
  cases isArray : sub.isArray with
  | false =>
    obtain ⟨dimensions, lower⟩ := height_lt_of_directlyBelow step isArray
    rw [RawType.isArray, bne_eq_false_iff_eq] at isArray
    exact .inr ⟨dimensions.trans isArray.symm, lower⟩
  | true =>
    rcases step.cases_of_isArray isArray with
      ⟨inner, higher, dimensions, plain, innerStep, rfl, rfl⟩
        | ⟨element, higher, dimensions, isAbove, rfl, rfl⟩
    · obtain ⟨aboveDimensions, lower⟩ := height_lt_of_directlyBelow innerStep plain
      rw [RawType.isArray, bne_eq_false_iff_eq] at plain
      refine .inr ⟨?_, lower⟩
      show higher.dimensions + (dimensions + 1) = inner.dimensions + (dimensions + 1)
      rw [aboveDimensions, plain]
    · obtain ⟨aboveDimensions, -, -⟩ := populated.element_of_isAbove isAbove
      refine .inl ?_
      show higher.dimensions + dimensions < dimensions + 1
      omega

/-- On the raw types of a populated registry the test for assignability decides subtyping. -/
theorem rawAccepts_iff_below (populated : registry.Populated) {left right : RawType}
    (leftMem : left.element ∈ registry.declared) (rightMem : right.element ∈ registry.declared) :
    left.accepts right = true ↔ registry.Below right left := by
  constructor
  · intro accepts
    rw [populated.rawAccepts_iff leftMem rightMem] at accepts
    rcases accepts with ⟨same, accepts⟩ | ⟨fewer, accepts⟩
    · have elements := populated.below_of_accepts leftMem rightMem accepts
      have elements := elements.arrayOf right.dimensions
      rw [RawType.arrayOf_ofDeclaration_element, ← same,
        RawType.arrayOf_ofDeclaration_element] at elements
      exact elements
    · have arrays := populated.below_of_acceptsArrays leftMem accepts right.element fewer
      rw [RawType.arrayOf_ofDeclaration_element, RawType.arrayOf_ofDeclaration_element] at arrays
      exact arrays
  · intro below
    -- backwards along the steps: `left` accepts each type on the way, ending with `right`
    induction below using Relation.ReflTransGen.head_induction_on with
    | refl =>
      have self := (populated.accepts_iff leftMem leftMem).2 (.inl rfl)
      exact (populated.rawAccepts_iff leftMem leftMem).2 (.inl ⟨rfl, self⟩)
    | head step _ ih =>
      obtain ⟨aboveMem, accepts⟩ := populated.rawAccepts_of_directlyBelow rightMem step
      exact accepts left leftMem (ih aboveMem)

end Populated

/-- **Assignability is subtyping, and a partial order.** On the raw types of a registry that calls
lead to from the standard one, a raw type accepts exactly the raw types from which it is reached by
steps up. No chain of such steps goes on forever, and acceptance is reflexive, transitive and
antisymmetric. -/
theorem accepts_iff_below_and_partialOrder (reached : ReachableFrom standard registry) :
    (∀ target source, registry.IsHandle target → registry.IsHandle source →
        (target.accepts source = true ↔ registry.Below source target))
      ∧ (WellFounded fun above sub => registry.DirectlyBelow sub above)
      ∧ (∀ raw, registry.IsHandle raw → raw.accepts raw = true)
      ∧ (∀ first second third, registry.IsHandle first → registry.IsHandle second →
          registry.IsHandle third → first.accepts second = true → second.accepts third = true →
          first.accepts third = true)
      ∧ ∀ left right, registry.IsHandle left → registry.IsHandle right →
          left.accepts right = true → right.accepts left = true → left = right := by
  have populated := reached.populated
  have decides : ∀ target source, registry.IsHandle target → registry.IsHandle source →
      (target.accepts source = true ↔ registry.Below source target) := by
    intro target source targetHandle sourceHandle
    exact populated.rawAccepts_iff_below (populated.isHandle_iff.1 targetHandle)
      (populated.isHandle_iff.1 sourceHandle)
  have noCycle := populated.wellFounded_directlyBelow
  refine ⟨decides, noCycle, ?_, ?_, ?_⟩
  · intro raw handle
    rw [decides raw raw handle handle]
    exact .refl
  · intro first second third firstHandle secondHandle thirdHandle
    rw [decides first second firstHandle secondHandle,
      decides second third secondHandle thirdHandle, decides first third firstHandle thirdHandle]
    exact fun lower upper => upper.trans lower
  · intro left right leftHandle rightHandle
    rw [decides left right leftHandle rightHandle, decides right left rightHandle leftHandle]
    intro down up
    -- Two different raw types on one cycle would give a chain of steps up without an end.
    by_contra different
    have cycle : Relation.TransGen registry.DirectlyBelow left left := by
      rcases Relation.reflTransGen_iff_eq_or_transGen.1 up with same | up
      · exact absurd same.symm different
      · exact up.trans_left down
    exact noCycle.transGen.irrefl.irrefl left (Relation.transGen_swap.1 cycle)

/-- In the standard registry an array of arrays of numbers is an array of what can be cloned. -/
theorem accepts_arrayOfInts :
    ReachableFrom standard standard
      ∧ standard.Below ⟨.primitive .int, 2⟩ ⟨.interface "java.lang.Cloneable" [] [], 1⟩
      ∧ RawType.accepts ⟨.interface "java.lang.Cloneable" [] [], 1⟩ ⟨.primitive .int, 2⟩
        = true := by
  have reached : ReachableFrom standard standard := .start
  have populated := populated_standard
  have cloneable : .interface "java.lang.Cloneable" [] [] ∈ standard.declared :=
    populated.arrayInterface_mem _ List.mem_cons_self
  have int := populated.primitive_mem .int
  have step : standard.DirectlyBelow ⟨.primitive .int, 2⟩
      ⟨.interface "java.lang.Cloneable" [] [], 1⟩ :=
    .array (.primitive .int)
      (.inr ⟨"java.lang.Cloneable", List.mem_cons_self, populated.find_name cloneable⟩) 1
  have below : standard.Below ⟨.primitive .int, 2⟩ ⟨.interface "java.lang.Cloneable" [] [], 1⟩ :=
    .single step
  have decides := (accepts_iff_below_and_partialOrder reached).1
    ⟨.interface "java.lang.Cloneable" [] [], 1⟩ ⟨.primitive .int, 2⟩
    (populated.isHandle_iff.2 cloneable) (populated.isHandle_iff.2 int)
  exact ⟨reached, below, decides.2 below⟩

end Registry

end GenericTypes
