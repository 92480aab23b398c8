import GenericTypes.Proofs.Descriptor.Equivalence
import GenericTypes.Proofs.Descriptor.Search
import GenericTypes.Proofs.Descriptor.Specificity
import GenericTypes.Proofs.Registry.Names

/-! # Sorting from general to specific

Descriptors are ordered like the lists of what their nodes contribute. Such a list and the canonical
text of a descriptor tell the same about it. From the list the text can be put together, as the
number of arguments that each entry holds says where the entries of an argument end. The other way
round, descriptors with the same text are equal but for markers, so they have the same names and
therefore the same raw types in every place. Descriptors on one place of the order are then those
with one canonical text. Sorting keeps these in the arrangement they had, and however a list of
descriptors was arranged before, sorting it brings the same texts into the same order. -/

namespace GenericTypes

instance : Std.LawfulEqCmp compareEntries where
  eq_of_compare := by
    rintro ⟨level, name, arity⟩ ⟨otherLevel, otherName, otherArity⟩ same
    obtain ⟨levels, rest⟩ := Ordering.then_eq_eq.1 same
    obtain ⟨names, arities⟩ := Ordering.then_eq_eq.1 rest
    have levels : compare level otherLevel = .eq := levels
    have names : compare name otherName = .eq := names
    have arities : compare arity otherArity = .eq := arities
    rw [Std.compare_eq_iff_eq] at levels names arities
    rw [levels, names, arities]

namespace Descriptor

variable {registry : Registry} {left right : Descriptor}

/-! ## Entries and canonical texts -/

/-- Two lists of as many descriptors whose entries are the same, something behind them included, have
the same texts and the same behind them, if this is true of each of the descriptors. -/
theorem map_canonical_eq_of_entries {lefts rights : List Descriptor}
    {leftRest rightRest : List (Nat × String × Nat)} (length : lefts.length = rights.length)
    (each : ∀ left ∈ lefts, ∀ (right : Descriptor) leftRest rightRest,
      left.entries ++ leftRest = right.entries ++ rightRest →
        left.canonical = right.canonical ∧ leftRest = rightRest)
    (same : lefts.flatMap entries ++ leftRest = rights.flatMap entries ++ rightRest) :
    lefts.map canonical = rights.map canonical ∧ leftRest = rightRest := by
  induction lefts generalizing rights with
  | nil =>
    cases List.eq_nil_of_length_eq_zero length.symm
    exact ⟨rfl, same⟩
  | cons left lefts ih =>
    cases rights with
    | nil => cases length
    | cons right rights =>
      rw [List.forall_mem_cons] at each
      rw [List.flatMap_cons, List.flatMap_cons, List.append_assoc, List.append_assoc] at same
      obtain ⟨text, same⟩ := each.1 right _ _ same
      obtain ⟨texts, rest⟩ := ih (Nat.succ.inj length) each.2 same
      exact ⟨List.cons_eq_cons.2 ⟨text, texts⟩, rest⟩

/-- Descriptors whose entries are the same, something behind them included, have the same canonical
text and the same behind them. -/
theorem canonical_eq_of_entries_append {leftRest rightRest : List (Nat × String × Nat)}
    (same : left.entries ++ leftRest = right.entries ++ rightRest) :
    left.canonical = right.canonical ∧ leftRest = rightRest := by
  induction left using inductionOnArguments generalizing right leftRest rightRest with
  | step left ih =>
    rw [entries_eq, entries_eq, List.cons_append, List.cons_append, List.cons_eq_cons] at same
    obtain ⟨roots, same⟩ := same
    simp only [Prod.mk.injEq] at roots
    obtain ⟨-, names, length⟩ := roots
    obtain ⟨texts, rest⟩ :=
      map_canonical_eq_of_entries length (fun argument mem _ _ _ => ih argument mem) same
    exact ⟨canonical_congr names texts, rest⟩

/-- Descriptors with the same entries have the same canonical text. -/
theorem canonical_eq_of_entries_eq (same : left.entries = right.entries) :
    left.canonical = right.canonical := by
  have same : left.entries ++ [] = right.entries ++ [] := by rw [same]
  exact (canonical_eq_of_entries_append same).1

/-- Descriptors with the same raw type whose arguments have the same entries have the same
entries. -/
theorem entries_congr (raw : left.raw = right.raw)
    (inner : left.arguments.map entries = right.arguments.map entries) :
    left.entries = right.entries := by
  have length := congrArg List.length inner
  rw [List.length_map, List.length_map] at length
  rw [entries_eq, entries_eq, raw, length, List.flatMap_def, inner, List.flatMap_def]

/-- Erasing keeps the entries. -/
theorem entries_erased (here : Address) (descriptor : Descriptor) :
    (descriptor.erased here).entries = descriptor.entries := by
  induction descriptor using inductionOnArguments generalizing here with
  | step descriptor ih =>
    apply entries_congr
    · rw [raw_erased]
    · rw [arguments_erased]
      exact map_erasedAll ih here 0

/-- Descriptors over a registry that are equal and no markers have the same entries. -/
theorem entries_eq_of_equal (populated : registry.Populated)
    (leftNodes : ∀ node ∈ left.nodes, node.identity = false
      ∧ node.raw.element ∈ registry.declared)
    (rightMem : ∀ node ∈ right.nodes, node.raw.element ∈ registry.declared)
    (equal : left.equal right = true) : right.entries = left.entries := by
  induction left using inductionOnArguments generalizing right with
  | step left ih =>
    obtain ⟨⟨leftPlain, leftRoot⟩, leftNodes⟩ := forall_nodes_iff.1 leftNodes
    obtain ⟨rightRoot, rightMem⟩ := forall_nodes_iff.1 rightMem
    obtain ⟨-, names, arguments⟩ := equal_cases equal leftPlain
    -- names tell raw types apart, so the levels are the same as well
    refine entries_congr (populated.eq_of_name_eq leftRoot rightRoot names).symm
      (map_eq_of_equalAll arguments fun argument mem other member same => ?_)
    exact ih argument mem (leftNodes argument mem) (rightMem other member) same

/-- Descriptors over a registry with the same canonical text have the same entries. -/
theorem entries_eq_of_canonical_eq (populated : registry.Populated)
    (leftMem : ∀ node ∈ left.nodes, node.raw.element ∈ registry.declared)
    (rightMem : ∀ node ∈ right.nodes, node.raw.element ∈ registry.declared)
    (same : left.canonical = right.canonical) : left.entries = right.entries := by
  -- without markers a descriptor is known by its text
  let here : Address := ⟨0, []⟩
  have leftNodes := forall_nodes_erased
    (P := fun raw => raw.element ∈ registry.declared) leftMem here
  have rightNodes := forall_nodes_erased
    (P := fun raw => raw.element ∈ registry.declared) rightMem here
  have equal : (right.erased here).equal (left.erased here) = true := by
    refine equal_of_canonical_eq (fun node mem => ?_) (fun node mem => ?_) ?_
    · exact ⟨(rightNodes node mem).1, populated.isName_name (rightNodes node mem).2⟩
    · exact ⟨(leftNodes node mem).1, populated.isName_name (leftNodes node mem).2⟩
    · rw [canonical_erased, canonical_erased, same]
  have entries := entries_eq_of_equal populated rightNodes (fun node mem => (leftNodes node mem).2)
    equal
  rwa [entries_erased, entries_erased] at entries

/-! ## The order -/

/-- Descriptors over a registry are on one place of the order if they have one canonical text. -/
theorem specificity_eq_iff (populated : registry.Populated)
    (leftMem : ∀ node ∈ left.nodes, node.raw.element ∈ registry.declared)
    (rightMem : ∀ node ∈ right.nodes, node.raw.element ∈ registry.declared) :
    left.specificity right = .eq ↔ left.canonical = right.canonical := by
  rw [specificity_eq_compareLex populated leftMem rightMem, Std.LawfulEqCmp.compare_eq_iff_eq]
  exact ⟨canonical_eq_of_entries_eq, entries_eq_of_canonical_eq populated leftMem rightMem⟩

/-- What is nowhere before a descriptor is nowhere before what comes before this one. -/
theorem specificity_isLE_trans (populated : registry.Populated) {first second third : Descriptor}
    (firstMem : ∀ node ∈ first.nodes, node.raw.element ∈ registry.declared)
    (secondMem : ∀ node ∈ second.nodes, node.raw.element ∈ registry.declared)
    (thirdMem : ∀ node ∈ third.nodes, node.raw.element ∈ registry.declared)
    (lower : (first.specificity second).isLE = true)
    (upper : (second.specificity third).isLE = true) :
    (first.specificity third).isLE = true := by
  rw [isLE_specificity populated firstMem secondMem] at lower
  rw [isLE_specificity populated secondMem thirdMem] at upper
  rw [isLE_specificity populated firstMem thirdMem]
  exact entriesLE_trans first second third lower upper

/-- Arrangements of the same descriptors over a registry in which nothing comes before what it
follows in the order show the same canonical texts. -/
theorem map_canonical_eq_of_perm (populated : registry.Populated)
    {lefts rights : List Descriptor} (perm : lefts.Perm rights)
    (mem : ∀ descriptor ∈ lefts, ∀ node ∈ descriptor.nodes, node.raw.element ∈ registry.declared)
    (leftOrdered : lefts.Pairwise fun earlier later => (earlier.specificity later).isLE = true)
    (rightOrdered : rights.Pairwise fun earlier later => (earlier.specificity later).isLE = true) :
    lefts.map canonical = rights.map canonical := by
  have ordered : ∀ {descriptors : List Descriptor},
      (∀ descriptor ∈ descriptors, ∀ node ∈ descriptor.nodes,
        node.raw.element ∈ registry.declared) →
      descriptors.Pairwise (fun earlier later => (earlier.specificity later).isLE = true) →
      (descriptors.map entries).Pairwise fun earlier later =>
        (List.compareLex compareEntries earlier later).isLE = true := by
    intro descriptors mem ordered
    refine List.pairwise_map.2 (ordered.imp_of_mem fun earlierIn laterIn isLE => ?_)
    rwa [← specificity_eq_compareLex populated (mem _ earlierIn) (mem _ laterIn)]
  -- lists of entries are in a linear order, so there is one arrangement of them
  have same : lefts.map entries = rights.map entries := by
    have rightMem := fun descriptor inside => mem descriptor (perm.mem_iff.2 inside)
    refine List.Perm.eq_of_pairwise (fun first second _ _ forth back => ?_)
      (ordered mem leftOrdered) (ordered rightMem rightOrdered) (perm.map entries)
    exact Std.LawfulEqCmp.eq_of_compare (Std.OrientedCmp.isLE_antisymm forth back)
  rw [← List.forall₂_eq_eq_eq, List.forall₂_map_left_iff, List.forall₂_map_right_iff] at same ⊢
  exact same.imp fun _ _ => canonical_eq_of_entries_eq

end Descriptor

namespace Registry

variable {registry : Registry}

/-- Permutations of the same descriptors over a registry show the same canonical texts when they are
sorted. -/
theorem Populated.map_canonical_sortBySpecificity (populated : registry.Populated)
    {candidates others : List Descriptor} (perm : candidates.Perm others)
    (mem : ∀ candidate ∈ candidates, ∀ node ∈ candidate.nodes,
      node.raw.element ∈ registry.declared) :
    (Descriptor.sortBySpecificity candidates).map Descriptor.canonical
      = (Descriptor.sortBySpecificity others).map Descriptor.canonical := by
  have sorted := Descriptor.perm_sortBySpecificity candidates
  have otherSorted := Descriptor.perm_sortBySpecificity others
  refine Descriptor.map_canonical_eq_of_perm populated (sorted.trans (perm.trans otherSorted.symm))
    (fun descriptor inside => mem descriptor (sorted.mem_iff.1 inside))
    (populated.pairwise_sortBySpecificity mem) (populated.pairwise_sortBySpecificity ?_)
  exact fun descriptor inside => mem descriptor (perm.mem_iff.2 inside)

/-- Descriptors over a registry with one canonical text keep their order when they are sorted. -/
theorem Populated.filter_sortBySpecificity (populated : registry.Populated)
    {candidates : List Descriptor}
    (mem : ∀ candidate ∈ candidates, ∀ node ∈ candidate.nodes,
      node.raw.element ∈ registry.declared) (text : String) :
    (Descriptor.sortBySpecificity candidates).filter (fun candidate => candidate.canonical == text)
      = candidates.filter fun candidate => candidate.canonical == text := by
  have alike : (candidates.filter fun candidate => candidate.canonical == text).Pairwise
      fun earlier later => earlier.entriesLE later = true := by
    refine List.pairwise_of_forall_mem_list fun earlier earlierIn later laterIn => ?_
    obtain ⟨earlierMem, earlierText⟩ := List.mem_filter.1 earlierIn
    obtain ⟨laterMem, laterText⟩ := List.mem_filter.1 laterIn
    have texts : earlier.canonical = later.canonical :=
      (eq_of_beq earlierText).trans (eq_of_beq laterText).symm
    have entries := Descriptor.entries_eq_of_canonical_eq populated (mem earlier earlierMem)
      (mem later laterMem) texts
    have same : List.compareLex compareEntries later.entries later.entries = .eq :=
      Std.ReflCmp.compare_self
    rw [Descriptor.entriesLE, entries, same]
    rfl
  -- a stable sort does not rearrange a part of the list that is in order already
  have sublist : (candidates.filter fun candidate => candidate.canonical == text).Sublist
      (Descriptor.sortBySpecificity candidates) := by
    rw [populated.sortBySpecificity_eq mem]
    exact List.sublist_mergeSort Descriptor.entriesLE_trans Descriptor.entriesLE_total alike
      List.filter_sublist
  have kept := sublist.filter fun candidate => candidate.canonical == text
  simp only [List.filter_filter, Bool.and_self] at kept
  have perm := (Descriptor.perm_sortBySpecificity candidates).filter
    fun candidate => candidate.canonical == text
  exact (kept.eq_of_length perm.length_eq.symm).symm

/-- **The order from general to specific is a total preorder, and sorting is canonical.** In a
registry that calls lead to from the standard one, take descriptors of raw types of the registry,
markers among them or not. Exchanging two of them turns their order around, the order is
transitive, and two of them are on one place exactly if they have the same canonical text. Sorting a
list of descriptors gives the same descriptors in order, where those with one canonical text stay as
they were arranged. So all permutations of a list show the same texts when they are sorted. -/
theorem ReachableFrom.specificity_preorder_and_sort (reached : ReachableFrom standard registry)
    {first second third : Descriptor}
    (firstHandles : ∀ node ∈ first.nodes, registry.IsHandle node.raw)
    (secondHandles : ∀ node ∈ second.nodes, registry.IsHandle node.raw)
    (thirdHandles : ∀ node ∈ third.nodes, registry.IsHandle node.raw)
    {candidates others : List Descriptor}
    (handles : ∀ candidate ∈ candidates, ∀ node ∈ candidate.nodes, registry.IsHandle node.raw)
    (perm : candidates.Perm others) :
    first.specificity second = (second.specificity first).swap
      ∧ ((first.specificity second).isLE = true → (second.specificity third).isLE = true →
        (first.specificity third).isLE = true)
      ∧ (first.specificity second = .eq ↔ first.canonical = second.canonical)
      ∧ (Descriptor.sortBySpecificity candidates).Perm candidates
      ∧ (Descriptor.sortBySpecificity candidates).Pairwise (fun earlier later =>
        (earlier.specificity later).isLE = true)
      ∧ (∀ text, (Descriptor.sortBySpecificity candidates).filter (fun candidate =>
          candidate.canonical == text)
        = candidates.filter fun candidate => candidate.canonical == text)
      ∧ (Descriptor.sortBySpecificity candidates).map Descriptor.canonical
        = (Descriptor.sortBySpecificity others).map Descriptor.canonical := by
  have populated := reached.populated
  simp only [populated.isHandle_iff] at firstHandles secondHandles thirdHandles handles
  exact ⟨Descriptor.specificity_swap populated firstHandles secondHandles,
    Descriptor.specificity_isLE_trans populated firstHandles secondHandles thirdHandles,
    Descriptor.specificity_eq_iff populated firstHandles secondHandles,
    Descriptor.perm_sortBySpecificity candidates, populated.pairwise_sortBySpecificity handles,
    populated.filter_sortBySpecificity handles,
    populated.map_canonical_sortBySpecificity perm handles⟩

/-- A box comes before numbers and so before a marker for numbers, which is on one place with
them. -/
theorem ReachableFrom.specificity_preorder_and_sort_box :
    let int : Descriptor := .leaf ⟨0, []⟩ (.ofDeclaration (.primitive .int))
    let marker : Descriptor := int.toIdentity ⟨1, []⟩
    let boxed : Descriptor := ⟨⟨2, []⟩, .ofDeclaration box, [marker], false⟩
    ReachableFrom standard crates
      ∧ (∀ descriptor ∈ [boxed, int, marker], ∀ node ∈ descriptor.nodes,
        crates.IsHandle node.raw)
      ∧ int.specificity boxed = .gt ∧ int.specificity marker = .eq
      ∧ (boxed.specificity marker).isLE = true
      ∧ (Descriptor.sortBySpecificity [boxed, int, marker]).Perm [boxed, int, marker]
      ∧ (Descriptor.sortBySpecificity [boxed, int, marker]).filter (fun candidate =>
          candidate.canonical == int.canonical) = [int, marker]
      ∧ (Descriptor.sortBySpecificity [boxed, int, marker]).map Descriptor.canonical
        = (Descriptor.sortBySpecificity [int, boxed, marker]).map Descriptor.canonical := by
  intro int marker boxed
  have reached := reachableFrom_crates
  have populated := reached.populated
  have boxMem : box ∈ crates.declared := populated.isHandle_iff.1 isHandle_box
  have intMem : .primitive .int ∈ crates.declared := populated.primitive_mem .int
  have intHandles : ∀ node ∈ int.nodes, crates.IsHandle node.raw :=
    Descriptor.forall_nodes_iff.2 ⟨populated.isHandle_iff.2 intMem, List.forall_mem_nil _⟩
  have markerHandles : ∀ node ∈ marker.nodes, crates.IsHandle node.raw :=
    Descriptor.forall_nodes_iff.2 ⟨populated.isHandle_iff.2 intMem, List.forall_mem_nil _⟩
  have boxedHandles : ∀ node ∈ boxed.nodes, crates.IsHandle node.raw :=
    Descriptor.forall_nodes_iff.2
      ⟨isHandle_box, List.forall_mem_singleton.2 markerHandles⟩
  have handles : ∀ descriptor ∈ [boxed, int, marker], ∀ node ∈ descriptor.nodes,
      crates.IsHandle node.raw := by
    refine List.forall_mem_cons.2 ⟨boxedHandles, List.forall_mem_cons.2 ⟨intHandles, ?_⟩⟩
    exact List.forall_mem_singleton.2 markerHandles
  have before : boxed.specificity int = .lt := by
    -- both raw types have nothing above them, so the names decide
    have names : (RawType.ofDeclaration box).specificity (.ofDeclaration (.primitive .int))
        = .lt := by
      refine (populated.rawSpecificity_eq boxMem intMem).trans ?_
      rw [RawType.level_of_dimensions_eq rfl, RawType.level_of_dimensions_eq rfl,
        level_of_parents_eq_nil rfl, level_of_parents_eq_nil rfl]
      decide
    exact Descriptor.specificity_of_raw names (by decide)
  have perm : [boxed, int, marker].Perm [int, boxed, marker] := .swap int boxed [marker]
  obtain ⟨swap, -, -, kept, -, stable, sorted⟩ :=
    reached.specificity_preorder_and_sort intHandles boxedHandles markerHandles handles perm
  obtain ⟨-, -, equal_iff, -⟩ :=
    reached.specificity_preorder_and_sort intHandles markerHandles boxedHandles handles perm
  have equal : int.specificity marker = .eq := equal_iff.2 (Descriptor.canonical_congr rfl rfl)
  obtain ⟨-, trans, different_iff, -⟩ :=
    reached.specificity_preorder_and_sort boxedHandles intHandles markerHandles handles perm
  have different : boxed.canonical ≠ int.canonical := by
    intro same
    rw [different_iff.2 same] at before
    cases before
  refine ⟨reached, handles, ?_, equal, ?_, kept, (stable int.canonical).trans ?_, sorted⟩
  · rw [swap, before]
    rfl
  · exact trans (by rw [before]; rfl) (by rw [equal]; rfl)
  · have same : marker.canonical = int.canonical := (equal_iff.1 equal).symm
    simp [different, same]

end Registry

end GenericTypes
