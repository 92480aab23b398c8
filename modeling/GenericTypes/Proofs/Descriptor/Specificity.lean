import Mathlib.Data.String.Basic
import GenericTypes.Descriptor.Specificity
import GenericTypes.Proofs.Descriptor.Canonical
import GenericTypes.Proofs.RawType.Level

/-! # From general to specific

Descriptors are ordered by the levels of their raw types, and so a type should come after all types
that accept it. It does where levels grow. They do not where a type accepts another one without
being declared above it: all arrays are on one level, and the root is on the level of an interface
that extends nothing. There the names decide, by accident.

To compare descriptors is to compare lists, one entry for each node: this is a total preorder, so
what sorting puts first is nowhere more specific than what follows, but for such ties. -/

namespace GenericTypes

namespace RawType

/-- Whether two raw types are on one level even if the first accepts the second: arrays of the same
number of dimensions, or the root and an interface that extends nothing. -/
def IsTied (general specific : RawType) : Prop :=
  general.isArray = true ∧ general.dimensions = specific.dimensions
    ∨ general.isTop = true ∧ specific.isInterface = true ∧ specific.supertypes = []

/-- All arrays are on one level. -/
theorem level_of_isArray {raw : RawType} (isArray : raw.isArray = true) :
    raw.level = 1 + arrayInterfaces.length :=
  if_pos isArray

/-- A raw type without dimensions is on the level of its element. -/
theorem level_of_dimensions_eq {raw : RawType} (plain : raw.dimensions = 0) :
    raw.level = raw.element.level := by
  rw [level, isArray, plain]
  rfl

end RawType

/-- A name of an array with fewer dimensions comes first: where the other name has a further
bracket, it has the letter in front of a reference. -/
theorem ArrayName.text_lt_text {fewer more : Nat} {name : String} {element : ArrayElement}
    (less : fewer < more) :
    ArrayName.text ⟨.reference name, fewer⟩ < ArrayName.text ⟨element, more⟩ := by
  obtain ⟨difference, rfl⟩ := Nat.exists_eq_add_of_lt less
  have split : List.replicate (fewer + difference + 1) '['
      = List.replicate fewer '[' ++ '[' :: List.replicate difference '[' := by
    rw [Nat.add_assoc, ← List.replicate_append_replicate, List.replicate_succ]
  rw [String.lt_iff_toList_lt, ArrayName.text, ArrayName.text, String.toList_ofList,
    String.toList_ofList, chars, chars]
  dsimp only
  rw [split, List.append_assoc]
  exact List.append_left_lt (List.Lex.rel (by decide))

namespace Registry

variable {registry : Registry}

/-! ## Raw types -/

namespace Populated

/-- Raw types of a registry are ordered by level and then by name. -/
theorem rawSpecificity_eq (populated : registry.Populated) {left right : RawType}
    (leftMem : left.element ∈ registry.declared) (rightMem : right.element ∈ registry.declared) :
    left.specificity right
      = (compare left.level right.level).then (compare left.name right.name) := by
  rw [RawType.specificity]
  by_cases same : left.name = right.name
  · rw [populated.eq_of_name_eq leftMem rightMem same, if_pos (RawType.beq_iff.2 rfl)]
    simp
  · rw [if_neg (fun equal => same (RawType.beq_iff.1 equal))]

/-- On a lower level a raw type comes first. -/
theorem rawSpecificity_of_level_lt (populated : registry.Populated) {left right : RawType}
    (leftMem : left.element ∈ registry.declared) (rightMem : right.element ∈ registry.declared)
    (lower : left.level < right.level) : left.specificity right = .lt := by
  rw [populated.rawSpecificity_eq leftMem rightMem, Nat.compare_eq_lt.2 lower]
  rfl

/-- On one level the names decide. -/
theorem rawSpecificity_of_level_eq (populated : registry.Populated) {left right : RawType}
    (leftMem : left.element ∈ registry.declared) (rightMem : right.element ∈ registry.declared)
    (same : left.level = right.level) :
    left.specificity right = compare left.name right.name := by
  rw [populated.rawSpecificity_eq leftMem rightMem, same, Nat.compare_eq_eq.2 rfl]
  rfl

/-- A type that accepts arrays of any kind has nothing above it. -/
theorem level_of_acceptsArrays (populated : registry.Populated) {declaration : Declaration}
    (mem : declaration ∈ registry.declared) (accepts : declaration.acceptsArrays = true) :
    declaration.level = 0 := by
  refine level_of_parents_eq_nil ?_
  rw [Declaration.acceptsArrays, Bool.or_eq_true, List.contains_iff_mem] at accepts
  rcases accepts with top | known
  · rw [populated.eq_top declaration mem top]
    rfl
  · have interface := populated.arrayInterface_mem _ known
    rw [populated.toWellFormed.eq_of_name_eq mem interface rfl]
    rfl

/-- A type with parents is not on the lowest level. -/
theorem level_pos (populated : registry.Populated) {declaration parent : Declaration}
    (mem : declaration ∈ registry.declared) (isParent : parent ∈ declaration.parents) :
    0 < declaration.level :=
  Nat.zero_lt_of_lt (populated.level_lt_of_above mem (.single isParent))

/-- A declared type is on a higher level than another one that accepts it, but for an interface that
extends nothing and the root. -/
theorem level_lt_of_accepts (populated : registry.Populated) {general specific : Declaration}
    (generalMem : general ∈ registry.declared) (specificMem : specific ∈ registry.declared)
    (different : general ≠ specific) (accepts : general.accepts specific = true)
    (untied : ¬ (general.isTop = true ∧ specific.isInterface = true ∧ specific.supertypes = [])) :
    general.level < specific.level := by
  cases top : general.isTop with
  | false =>
    have above := populated.above_of_accepts specificMem generalMem accepts different top
    exact populated.level_lt_of_above specificMem above
  | true =>
    have root := populated.eq_top general generalMem top
    rw [root, level_of_parents_eq_nil rfl]
    cases specific with
    | top name =>
      -- there is one root only
      exact absurd (root.trans (populated.eq_top _ specificMem rfl).symm) different
    | primitive type =>
      rcases (populated.accepts_iff generalMem specificMem).1 accepts with same | ⟨-, kind, -⟩
      · exact absurd same different
      · cases kind
    | ordinary name parameters superclass interfaces =>
      exact populated.level_pos specificMem (List.mem_map_of_mem List.mem_cons_self)
    | interface name parameters interfaces =>
      cases interfaces with
      | nil => exact absurd ⟨top, rfl, rfl⟩ untied
      | cons first others =>
        exact populated.level_pos specificMem (List.mem_map_of_mem List.mem_cons_self)

/-- The name of an array of a type that accepts arrays comes before the names of arrays with more
dimensions. -/
theorem name_lt_of_acceptsArrays (populated : registry.Populated) {left right : RawType}
    (mem : left.element ∈ registry.declared) (accepts : left.element.acceptsArrays = true)
    (isArray : left.dimensions ≠ 0) (less : left.dimensions < right.dimensions) :
    left.name < right.name := by
  have notPrimitive : left.element.isPrimitive = false := by
    rw [Declaration.acceptsArrays, Bool.or_eq_true, List.contains_iff_mem] at accepts
    rcases accepts with top | known
    · rw [populated.eq_top _ mem top]
      rfl
    · rw [populated.toWellFormed.eq_of_name_eq mem (populated.arrayInterface_mem _ known) rfl]
      rfl
  rw [RawType.name_of_dimensions_ne isArray, RawType.name_of_dimensions_ne (by omega),
    Declaration.arrayElement_of_isPrimitive_eq_false notPrimitive]
  exact ArrayName.text_lt_text less

/-- A raw type comes before another one that it accepts if they are not tied. -/
theorem rawSpecificity_of_accepts (populated : registry.Populated) {general specific : RawType}
    (generalMem : general.element ∈ registry.declared)
    (specificMem : specific.element ∈ registry.declared) (different : general ≠ specific)
    (accepts : general.accepts specific = true) (untied : ¬ general.IsTied specific) :
    general.specificity specific = .lt := by
  rcases (populated.rawAccepts_iff generalMem specificMem).1 accepts with
    ⟨same, accepts⟩ | ⟨less, accepts⟩
  · -- arrays of the same number of dimensions are tied
    have plain : general.dimensions = 0 := by
      by_contra positive
      exact untied (.inl ⟨bne_iff_ne.2 positive, same⟩)
    refine populated.rawSpecificity_of_level_lt generalMem specificMem ?_
    rw [RawType.level_of_dimensions_eq plain, RawType.level_of_dimensions_eq (same ▸ plain)]
    refine populated.level_lt_of_accepts generalMem specificMem ?_ accepts ?_
    · exact fun elements => different (RawType.eq_of_parts elements same)
    · rintro ⟨top, isInterface, none⟩
      refine untied (.inr ?_)
      rw [RawType.isTop, RawType.isInterface, RawType.supertypes, RawType.isArray, RawType.isArray,
        ← same, plain]
      exact ⟨top, isInterface, none⟩
  · have isArray : specific.isArray = true := bne_iff_ne.2 (by omega)
    by_cases plain : general.dimensions = 0
    · refine populated.rawSpecificity_of_level_lt generalMem specificMem ?_
      rw [RawType.level_of_dimensions_eq plain, RawType.level_of_isArray isArray,
        populated.level_of_acceptsArrays generalMem accepts]
      decide
    · -- two arrays are on one level
      have level : general.level = specific.level := by
        rw [RawType.level_of_isArray (bne_iff_ne.2 plain), RawType.level_of_isArray isArray]
      rw [populated.rawSpecificity_of_level_eq generalMem specificMem level]
      exact compare_lt_iff_lt.2 (populated.name_lt_of_acceptsArrays generalMem accepts plain less)

/-- Tied raw types are ordered by their names. -/
theorem rawSpecificity_of_isTied (populated : registry.Populated) {general specific : RawType}
    (generalMem : general.element ∈ registry.declared)
    (specificMem : specific.element ∈ registry.declared) (tied : general.IsTied specific) :
    general.specificity specific = compare general.name specific.name := by
  refine populated.rawSpecificity_of_level_eq generalMem specificMem ?_
  rcases tied with ⟨isArray, same⟩ | ⟨top, isInterface, none⟩
  · have specificIsArray : specific.isArray = true := by
      rw [RawType.isArray, ← same]
      exact isArray
    rw [RawType.level_of_isArray isArray, RawType.level_of_isArray specificIsArray]
  · rw [RawType.isTop, Bool.and_eq_true, Bool.not_eq_true'] at top
    rw [RawType.isInterface, Bool.and_eq_true, Bool.not_eq_true'] at isInterface
    rw [RawType.supertypes, isInterface.1, if_neg Bool.false_ne_true] at none
    rw [RawType.level_of_dimensions_eq (bne_eq_false_iff_eq.1 top.1),
      RawType.level_of_dimensions_eq (bne_eq_false_iff_eq.1 isInterface.1),
      populated.eq_top _ generalMem top.2, level_of_parents_eq_nil rfl, level_of_parents_eq_nil]
    rw [Declaration.parents, none]
    rfl

end Populated

end Registry

/-! ## Descriptors

A descriptor is compared like the list of its nodes, in order, by what each contributes: the level
and the name of its raw type and the number of its arguments. -/

/-- The order of what nodes contribute. -/
def compareEntries : Nat × String × Nat → Nat × String × Nat → Ordering :=
  compareLex (compareOn Prod.fst) (compareLex (compareOn (·.2.1)) (compareOn (·.2.2)))

instance : Std.TransCmp compareEntries :=
  inferInstanceAs (Std.TransCmp (compareLex _ _))

namespace Descriptor

/-- What the nodes of a descriptor contribute to the order. -/
def entries (descriptor : Descriptor) : List (Nat × String × Nat) :=
  descriptor.nodes.map fun node => (node.raw.level, node.raw.name, node.arguments.length)

/-- The root comes before the arguments. -/
theorem entries_eq (descriptor : Descriptor) : descriptor.entries
    = (descriptor.raw.level, descriptor.raw.name, descriptor.arguments.length)
      :: descriptor.arguments.flatMap entries := by
  rw [entries, nodes, List.map_cons, List.map_flatMap]
  rfl

variable {registry : Registry} {left right : Descriptor}

/-- Lists of arguments are compared like the lists of their entries in front of anything else, if
each argument is. -/
theorem compareLex_flatMap_entries {lefts rights : List Descriptor} {leftRest rightRest : List _}
    (length : lefts.length = rights.length)
    (each : ∀ left ∈ lefts, ∀ right ∈ rights, ∀ leftRest rightRest,
      List.compareLex compareEntries (left.entries ++ leftRest) (right.entries ++ rightRest)
        = (left.specificity right).then (List.compareLex compareEntries leftRest rightRest)) :
    List.compareLex compareEntries (lefts.flatMap entries ++ leftRest)
        (rights.flatMap entries ++ rightRest)
      = (specificityAll lefts rights).then
        (List.compareLex compareEntries leftRest rightRest) := by
  induction lefts generalizing rights with
  | nil =>
    cases List.eq_nil_of_length_eq_zero length.symm
    rw [specificityAll]
    · rfl
    · exact nofun
  | cons left lefts ih =>
    cases rights with
    | nil => cases length
    | cons right rights =>
      rw [List.flatMap_cons, List.flatMap_cons, List.append_assoc, List.append_assoc,
        each left List.mem_cons_self right List.mem_cons_self, specificityAll, Ordering.then_assoc,
        ih (Nat.succ.inj length) fun left leftMem right rightMem =>
          each left (List.mem_cons_of_mem _ leftMem) right (List.mem_cons_of_mem _ rightMem)]

/-- Descriptors over a registry are compared like the lists of their entries in front of anything
else. -/
theorem compareLex_entries_append (populated : registry.Populated)
    (leftMem : ∀ node ∈ left.nodes, node.raw.element ∈ registry.declared)
    (rightMem : ∀ node ∈ right.nodes, node.raw.element ∈ registry.declared)
    (leftRest rightRest : List (Nat × String × Nat)) :
    List.compareLex compareEntries (left.entries ++ leftRest) (right.entries ++ rightRest)
      = (left.specificity right).then (List.compareLex compareEntries leftRest rightRest) := by
  induction left using inductionOnArguments generalizing right leftRest rightRest with
  | step left ih =>
    obtain ⟨leftRoot, leftMem⟩ := forall_nodes_iff.1 leftMem
    obtain ⟨rightRoot, rightMem⟩ := forall_nodes_iff.1 rightMem
    have roots : compareEntries
        (left.raw.level, left.raw.name, left.arguments.length)
        (right.raw.level, right.raw.name, right.arguments.length)
        = (left.raw.specificity right.raw).then
          (compare left.arguments.length right.arguments.length) := by
      rw [populated.rawSpecificity_eq leftRoot rightRoot, Ordering.then_assoc]
      rfl
    rw [entries_eq, entries_eq, List.cons_append, List.cons_append, List.compareLex_cons_cons,
      roots]
    cases left with
    | mk leftAddress leftRaw lefts leftIdentity =>
    cases right with
    | mk rightAddress rightRaw rights rightIdentity =>
    rw [specificity]
    simp only [Ordering.then_assoc]
    by_cases length : lefts.length = rights.length
    · rw [compareLex_flatMap_entries length fun left leftIn right rightIn =>
        ih left leftIn (leftMem left leftIn) (rightMem right rightIn)]
    · -- the numbers of arguments differ, so they decide if the raw types do not
      cases compared : compare lefts.length rights.length with
      | eq => exact absurd (Nat.compare_eq_eq.1 compared) length
      | lt => rfl
      | gt => rfl

/-- Descriptors over a registry are compared like the lists of their entries. -/
theorem specificity_eq_compareLex (populated : registry.Populated)
    (leftMem : ∀ node ∈ left.nodes, node.raw.element ∈ registry.declared)
    (rightMem : ∀ node ∈ right.nodes, node.raw.element ∈ registry.declared) :
    left.specificity right = List.compareLex compareEntries left.entries right.entries := by
  have compared := compareLex_entries_append populated leftMem rightMem [] []
  rw [List.append_nil, List.append_nil] at compared
  rw [compared]
  cases left.specificity right <;> rfl

/-- Whether the entries of a descriptor are those of another one or come before them. -/
def entriesLE (left right : Descriptor) : Bool :=
  (List.compareLex compareEntries left.entries right.entries).isLE

/-- The order of entries is transitive. -/
theorem entriesLE_trans (first second third : Descriptor) (lower : first.entriesLE second = true)
    (upper : second.entriesLE third = true) : first.entriesLE third = true :=
  Std.TransCmp.isLE_trans lower upper

/-- The order of entries is total. -/
theorem entriesLE_total (left right : Descriptor) :
    (left.entriesLE right || right.entriesLE left) = true := by
  have swapped : List.compareLex compareEntries right.entries left.entries
      = (List.compareLex compareEntries left.entries right.entries).swap :=
    Std.OrientedCmp.eq_swap
  rw [entriesLE, entriesLE, swapped]
  cases List.compareLex compareEntries left.entries right.entries <;> rfl

/-- A descriptor over a registry is nowhere after another one exactly if its entries are not. -/
theorem isLE_specificity (populated : registry.Populated)
    (leftMem : ∀ node ∈ left.nodes, node.raw.element ∈ registry.declared)
    (rightMem : ∀ node ∈ right.nodes, node.raw.element ∈ registry.declared) :
    (left.specificity right).isLE = left.entriesLE right := by
  rw [specificity_eq_compareLex populated leftMem rightMem, entriesLE]

/-- Exchanging two descriptors over a registry turns their order around. -/
theorem specificity_swap (populated : registry.Populated)
    (leftMem : ∀ node ∈ left.nodes, node.raw.element ∈ registry.declared)
    (rightMem : ∀ node ∈ right.nodes, node.raw.element ∈ registry.declared) :
    left.specificity right = (right.specificity left).swap := by
  rw [specificity_eq_compareLex populated leftMem rightMem,
    specificity_eq_compareLex populated rightMem leftMem]
  exact Std.OrientedCmp.eq_swap

/-- Descriptors with different raw types are compared by these. -/
theorem specificity_of_raw {order : Ordering} (raws : left.raw.specificity right.raw = order)
    (decided : order ≠ .eq) : left.specificity right = order := by
  cases left
  cases right
  rw [specificity, raws]
  cases order with
  | eq => exact absurd rfl decided
  | lt => rfl
  | gt => rfl

/-- Sorting loses and adds nothing. -/
theorem perm_sortBySpecificity (descriptors : List Descriptor) :
    (sortBySpecificity descriptors).Perm descriptors :=
  List.mergeSort_perm _ _

end Descriptor

namespace Registry

variable {registry : Registry}

/-- Descriptors over a registry are sorted by the lists of their entries. -/
theorem Populated.sortBySpecificity_eq (populated : registry.Populated)
    {descriptors : List Descriptor}
    (mem : ∀ descriptor ∈ descriptors, ∀ node ∈ descriptor.nodes,
      node.raw.element ∈ registry.declared) :
    Descriptor.sortBySpecificity descriptors = descriptors.mergeSort Descriptor.entriesLE := by
  have sorted : (Descriptor.sortBySpecificity descriptors).map id
      = (descriptors.map id).mergeSort Descriptor.entriesLE :=
    List.map_mergeSort fun left leftIn right rightIn =>
      Descriptor.isLE_specificity populated (mem left leftIn) (mem right rightIn)
  rwa [List.map_id, List.map_id] at sorted

/-- Sorting puts nothing before what comes before it in the order. -/
theorem Populated.pairwise_sortBySpecificity (populated : registry.Populated)
    {descriptors : List Descriptor}
    (mem : ∀ descriptor ∈ descriptors, ∀ node ∈ descriptor.nodes,
      node.raw.element ∈ registry.declared) :
    (Descriptor.sortBySpecificity descriptors).Pairwise fun earlier later =>
      (earlier.specificity later).isLE = true := by
  have sorted : (descriptors.mergeSort Descriptor.entriesLE).Pairwise fun earlier later =>
      earlier.entriesLE later = true :=
    List.pairwise_mergeSort Descriptor.entriesLE_trans Descriptor.entriesLE_total descriptors
  rw [← populated.sortBySpecificity_eq mem] at sorted
  refine sorted.imp_of_mem fun earlierIn laterIn ordered => ?_
  have perm := Descriptor.perm_sortBySpecificity descriptors
  rwa [Descriptor.isLE_specificity populated (mem _ (perm.mem_iff.1 earlierIn))
    (mem _ (perm.mem_iff.1 laterIn))]

/-- **General types come before specific ones, but for ties.** In every registry that calls lead to
from the standard one, take two different raw types of which the first accepts the second. The first
comes before the second unless they are tied; then the smaller name comes first. So in a sorted list
of descriptors, with arguments or without, a descriptor comes before another one whose raw type
accepts its own only if the raw types are tied and its name is the smaller one. -/
theorem ReachableFrom.specificity_of_accepts (reached : ReachableFrom standard registry) :
    (∀ general specific here there, registry.IsHandle general → registry.IsHandle specific →
        general ≠ specific → general.accepts specific = true →
        (¬ general.IsTied specific →
            (Descriptor.leaf here general).specificity (.leaf there specific) = .lt)
          ∧ (general.IsTied specific →
            (Descriptor.leaf here general).specificity (.leaf there specific)
              = compare general.name specific.name))
      ∧ ∀ candidates : List Descriptor,
        (∀ candidate ∈ candidates, ∀ node ∈ candidate.nodes, registry.IsHandle node.raw) →
        (Descriptor.sortBySpecificity candidates).Pairwise fun earlier later =>
          later.raw ≠ earlier.raw → later.raw.accepts earlier.raw = true →
            later.raw.IsTied earlier.raw ∧ earlier.raw.name < later.raw.name := by
  have populated := reached.populated
  refine ⟨?_, ?_⟩
  · intro general specific here there generalHandle specificHandle different accepts
    have generalMem := populated.isHandle_iff.1 generalHandle
    have specificMem := populated.isHandle_iff.1 specificHandle
    refine ⟨fun untied => ?_, fun tied => ?_⟩
    · exact Descriptor.specificity_of_raw
        (populated.rawSpecificity_of_accepts generalMem specificMem different accepts untied) nofun
    · refine Descriptor.specificity_of_raw
        (populated.rawSpecificity_of_isTied generalMem specificMem tied) ?_
      exact fun equal => different
        (populated.eq_of_name_eq generalMem specificMem (Std.compare_eq_iff_eq.1 equal))
  · intro candidates handles
    have mem : ∀ candidate ∈ candidates, ∀ node ∈ candidate.nodes,
        node.raw.element ∈ registry.declared :=
      fun candidate inside node isNode =>
        populated.isHandle_iff.1 (handles candidate inside node isNode)
    refine (populated.pairwise_sortBySpecificity mem).imp_of_mem ?_
    intro earlier later earlierIn laterIn ordered different accepts
    have inOrder : ∀ descriptor ∈ Descriptor.sortBySpecificity candidates,
        ∀ node ∈ descriptor.nodes, node.raw.element ∈ registry.declared :=
      fun descriptor inside =>
        mem descriptor ((Descriptor.perm_sortBySpecificity candidates).mem_iff.1 inside)
    have earlierMem := (Descriptor.forall_nodes_iff.1 (inOrder earlier earlierIn)).1
    have laterMem := (Descriptor.forall_nodes_iff.1 (inOrder later laterIn)).1
    have notBefore : later.raw.specificity earlier.raw ≠ .lt := by
      intro before
      rw [Descriptor.specificity_swap populated (inOrder _ earlierIn) (inOrder _ laterIn),
        Descriptor.specificity_of_raw before nofun] at ordered
      cases ordered
    by_cases tied : later.raw.IsTied earlier.raw
    · refine ⟨tied, ?_⟩
      rw [populated.rawSpecificity_of_isTied laterMem earlierMem tied] at notBefore
      refine lt_of_le_of_ne (not_lt.1 fun less => notBefore (compare_lt_iff_lt.2 less)) ?_
      exact fun names => different (populated.eq_of_name_eq laterMem earlierMem names.symm)
    · exact absurd
        (populated.rawSpecificity_of_accepts laterMem earlierMem different accepts tied) notBefore

/-- In the standard registry the interface of arrays that can be cloned comes before the arrays of
numbers, which it accepts. -/
theorem ReachableFrom.specificity_of_accepts_arrayOfInts :
    let cloneable : RawType := .ofDeclaration (.interface "java.lang.Cloneable" [] [])
    let ints : RawType := ⟨.primitive .int, 1⟩
    ReachableFrom standard standard ∧ standard.IsHandle cloneable ∧ standard.IsHandle ints
      ∧ cloneable ≠ ints ∧ cloneable.accepts ints = true ∧ ¬ cloneable.IsTied ints
      ∧ (Descriptor.leaf ⟨0, []⟩ cloneable).specificity (.leaf ⟨1, []⟩ ints) = .lt := by
  intro cloneable ints
  have reached : ReachableFrom standard standard := .start
  have cloneableHandle : standard.IsHandle cloneable :=
    populated_standard.isHandle_iff.2
      (populated_standard.arrayInterface_mem _ List.mem_cons_self)
  have intsHandle : standard.IsHandle ints :=
    populated_standard.isHandle_iff.2 (populated_standard.primitive_mem .int)
  have untied : ¬ cloneable.IsTied ints := by
    rintro (⟨isArray, -⟩ | ⟨top, -⟩)
    · cases isArray
    · cases top
  have different : cloneable ≠ ints := fun same => nomatch congrArg RawType.dimensions same
  exact ⟨reached, cloneableHandle, intsHandle, different, rfl, untied,
    (reached.specificity_of_accepts.1 cloneable ints _ _ cloneableHandle intsHandle different
      rfl).1 untied⟩

/-- In the standard registry the root comes after an interface that it accepts, and the arrays of
the root come after the arrays of this interface, which they accept. -/
theorem specificity_serializable :
    let root : Declaration := .top "java.lang.Object"
    let serializable : Declaration := .interface "java.io.Serializable" [] []
    ReachableFrom standard standard
      ∧ (standard.lookup "java.lang.Object").1 = .ok (.ofDeclaration root)
      ∧ (standard.lookup "java.io.Serializable").1 = .ok (.ofDeclaration serializable)
      ∧ (standard.lookup "[Ljava.lang.Object;").1 = .ok ⟨root, 1⟩
      ∧ (standard.lookup "[Ljava.io.Serializable;").1 = .ok ⟨serializable, 1⟩
      ∧ (RawType.ofDeclaration root).accepts (.ofDeclaration serializable) = true
      ∧ (Descriptor.leaf ⟨0, []⟩ (.ofDeclaration root)).specificity
          (.leaf ⟨1, []⟩ (.ofDeclaration serializable)) = .gt
      ∧ RawType.accepts ⟨root, 1⟩ ⟨serializable, 1⟩ = true
      ∧ (Descriptor.leaf ⟨0, []⟩ ⟨root, 1⟩).specificity (.leaf ⟨1, []⟩ ⟨serializable, 1⟩)
        = .gt := by
  intro root serializable
  have populated := populated_standard
  have rootMem : root ∈ standard.declared := by
    have mem := populated.top_mem
    rwa [populated.topName_eq] at mem
  have serializableMem : serializable ∈ standard.declared :=
    populated.arrayInterface_mem _ (List.mem_cons_of_mem _ List.mem_cons_self)
  have accepts : root.accepts serializable = true :=
    populated.accepts_of_isTop rootMem serializableMem rfl rfl
  have rootFound : standard.find "java.lang.Object" = .ok (.ofDeclaration root) :=
    populated.find_name rootMem
  have serializableFound : standard.find "java.io.Serializable"
      = .ok (.ofDeclaration serializable) := populated.find_name serializableMem
  refine ⟨.start, rootFound, serializableFound,
    populated.find_of_ofText? rootMem rfl (by decide),
    populated.find_of_ofText? serializableMem rfl (by decide), ?_, ?_, ?_, ?_⟩
  · exact (populated.rawAccepts_iff rootMem serializableMem).2 (.inl ⟨rfl, accepts⟩)
  · refine Descriptor.specificity_of_raw ?_ nofun
    have tied : (RawType.ofDeclaration root).IsTied (.ofDeclaration serializable) :=
      .inr ⟨rfl, rfl, rfl⟩
    refine (populated.rawSpecificity_of_isTied rootMem serializableMem tied).trans ?_
    decide
  · exact (populated.rawAccepts_iff rootMem serializableMem).2 (.inl ⟨rfl, accepts⟩)
  · refine Descriptor.specificity_of_raw ?_ nofun
    have tied : RawType.IsTied ⟨root, 1⟩ ⟨serializable, 1⟩ := .inl ⟨rfl, rfl⟩
    refine (populated.rawSpecificity_of_isTied rootMem serializableMem tied).trans ?_
    decide

end Registry

end GenericTypes
