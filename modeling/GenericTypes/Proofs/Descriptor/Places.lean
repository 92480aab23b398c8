import GenericTypes.Descriptor.Fit
import GenericTypes.Proofs.Descriptor.Equality

/-! # Places of nodes

Where a node was made matters for markers only. A descriptor without the places of its other nodes
is a normal form of it: descriptors with the same normal form are equal, and equal descriptors have
the same normal form when names tell their raw types apart and places their markers. What depends on
raw types and arguments alone can then be carried from one of two equal descriptors to the other. -/

namespace GenericTypes

namespace Descriptor

/-! ## Normal forms -/

/-- A descriptor without the places of its nodes, down to the first markers. -/
def unplaced (descriptor : Descriptor) : Descriptor :=
  if descriptor.identity then descriptor
  else { address := ⟨0, []⟩
         raw := descriptor.raw
         arguments := descriptor.arguments.map fun argument => argument.unplaced }
termination_by sizeOf descriptor
decreasing_by exact sizeOf_lt_of_mem_arguments ‹_›

variable {left right : Descriptor}

/-- A marker keeps its place. -/
theorem unplaced_of_identity (marker : left.identity = true) : left.unplaced = left := by
  rw [unplaced, if_pos marker]

/-- A node that is no marker loses its place. -/
theorem unplaced_of_plain (plain : left.identity = false) :
    left.unplaced = ⟨⟨0, []⟩, left.raw, left.arguments.map unplaced, false⟩ := by
  rw [unplaced, if_neg (ne_true_of_eq_false plain)]

@[simp] theorem raw_unplaced (descriptor : Descriptor) :
    descriptor.unplaced.raw = descriptor.raw := by
  rw [unplaced]
  split <;> rfl

@[simp] theorem identity_unplaced (descriptor : Descriptor) :
    descriptor.unplaced.identity = descriptor.identity := by
  rw [unplaced]
  split
  · rfl
  · rename_i plain
    exact (eq_false_of_ne_true plain).symm

/-- Descriptors with the same normal form have the same raw type. -/
theorem raw_eq_of_unplaced_eq (same : left.unplaced = right.unplaced) : left.raw = right.raw := by
  rw [← raw_unplaced left, same, raw_unplaced]

/-- Descriptors with the same normal form are both markers or both none. -/
theorem identity_eq_of_unplaced_eq (same : left.unplaced = right.unplaced) :
    left.identity = right.identity := by
  rw [← identity_unplaced left, same, identity_unplaced]

/-- Descriptors with the same normal form have arguments with the same normal forms. -/
theorem arguments_eq_of_unplaced_eq (same : left.unplaced = right.unplaced) :
    left.arguments.map unplaced = right.arguments.map unplaced := by
  have kinds := identity_eq_of_unplaced_eq same
  cases kind : left.identity with
  | true =>
    rw [kind] at kinds
    rw [unplaced_of_identity kind, unplaced_of_identity kinds.symm] at same
    rw [same]
  | false =>
    rw [kind] at kinds
    rw [unplaced_of_plain kind, unplaced_of_plain kinds.symm] at same
    exact congrArg Descriptor.arguments same

/-- Nodes that are no markers have the same normal form when they have the same raw type and
arguments with the same normal forms. -/
theorem unplaced_eq_of_parts (leftPlain : left.identity = false)
    (rightPlain : right.identity = false)
    (raw : left.raw = right.raw)
    (arguments : left.arguments.map unplaced = right.arguments.map unplaced) :
    left.unplaced = right.unplaced := by
  rw [unplaced_of_plain leftPlain, unplaced_of_plain rightPlain, raw, arguments]

/-! ## Equality -/

/-- Markers are equal when they stand in the same place, and equal to markers only. -/
theorem equal_iff_of_identity (marker : left.identity = true) :
    left.equal right = true ↔ right.identity = true ∧ left.address = right.address := by
  cases left
  cases right
  cases marker
  rw [equal]
  simp

/-- Lists of descriptors with the same normal forms are equal if this holds of the descriptors. -/
theorem equalAll_of_map_unplaced_eq {lefts rights : List Descriptor}
    (equal : ∀ left ∈ lefts, ∀ right : Descriptor, left.unplaced = right.unplaced →
      left.equal right = true)
    (same : lefts.map unplaced = rights.map unplaced) : equalAll lefts rights = true := by
  induction lefts generalizing rights with
  | nil =>
    cases rights with
    | nil => rfl
    | cons right rights => cases same
  | cons left lefts ih =>
    cases rights with
    | nil => cases same
    | cons right rights =>
      rw [List.map_cons, List.map_cons, List.cons.injEq] at same
      rw [List.forall_mem_cons] at equal
      rw [equalAll, equal.1 right same.1, ih equal.2 same.2]
      rfl

/-- Descriptors with the same normal form are equal. -/
theorem equal_of_unplaced_eq (same : left.unplaced = right.unplaced) :
    left.equal right = true := by
  induction left using inductionOnArguments generalizing right with
  | step left ih =>
    have kinds := identity_eq_of_unplaced_eq same
    cases kind : left.identity with
    | true =>
      rw [kind] at kinds
      rw [unplaced_of_identity kind, unplaced_of_identity kinds.symm] at same
      rw [equal_iff_of_identity kind, same]
      exact ⟨kinds.symm, rfl⟩
    | false =>
      rw [kind] at kinds
      rw [equal_eq kind kinds.symm, Bool.and_eq_true, RawType.beq_iff, raw_eq_of_unplaced_eq same]
      exact ⟨rfl, equalAll_of_map_unplaced_eq (fun argument mem _ => ih argument mem)
        (arguments_eq_of_unplaced_eq same)⟩

/-- Whether the raw types and the markers in a descriptor have given properties. -/
def MadeOf (raws : RawType → Prop) (markers : Descriptor → Prop) (descriptor : Descriptor) : Prop :=
  ∀ node ∈ descriptor.nodes, raws node.raw ∧ (node.identity = true → markers node)

section MadeOf

variable {raws : RawType → Prop} {markers : Descriptor → Prop}

/-- What a descriptor is made of is its root and what its arguments are made of. -/
theorem madeOf_iff {descriptor : Descriptor} :
    descriptor.MadeOf raws markers ↔
      (raws descriptor.raw ∧ (descriptor.identity = true → markers descriptor))
        ∧ ∀ argument ∈ descriptor.arguments, argument.MadeOf raws markers := by
  rw [MadeOf, forall_nodes_iff]
  rfl

/-- Equal descriptors have the same normal form, if names tell raw types apart and places tell
markers apart. -/
theorem unplaced_eq_of_equal
    (names : ∀ left right, raws left → raws right → left.name = right.name → left = right)
    (places : ∀ left right, markers left → markers right → left.address = right.address →
      left = right)
    (leftMade : left.MadeOf raws markers) (rightMade : right.MadeOf raws markers)
    (equal : left.equal right = true) : left.unplaced = right.unplaced := by
  induction left using inductionOnArguments generalizing right with
  | step left ih =>
    rw [madeOf_iff] at leftMade rightMade
    cases kind : left.identity with
    | true =>
      obtain ⟨marker, address⟩ := (equal_iff_of_identity kind).1 equal
      rw [places left right (leftMade.1.2 kind) (rightMade.1.2 marker) address]
    | false =>
      obtain ⟨plain, sameName, arguments⟩ := equal_cases equal kind
      have normal : right.arguments.map unplaced = left.arguments.map unplaced := by
        apply map_eq_of_equalAll arguments
        intro argument mem other member same
        exact (ih argument mem (leftMade.2 argument mem) (rightMade.2 other member) same).symm
      rw [unplaced_of_plain kind, unplaced_of_plain plain, normal,
        names left.raw right.raw leftMade.1.1 rightMade.1.1 sameName]

end MadeOf

/-- Whether the markers in a descriptor are told apart by their places. The place of a marker says
which node it is, so this fails of no descriptor whose markers have been made one by one. -/
def PlacesAgree (descriptor : Descriptor) : Prop :=
  ∀ left ∈ descriptor.nodes, ∀ right ∈ descriptor.nodes, left.identity = true →
    right.identity = true → left.address = right.address → left = right

/-! ## Fit -/

/-- How a candidate fits depends on its raw type and the raw types of its arguments. -/
theorem fit_eq_of_raws {expected : Descriptor} (raws : left.raw = right.raw)
    (arguments : left.arguments.map raw = right.arguments.map raw) :
    expected.fit left = expected.fit right := by
  have fits : ∀ candidate : Descriptor,
      List.zipWith (fun first second => Fit.ofArguments first.raw second.raw) expected.arguments
          candidate.arguments
        = List.zipWith (fun first second => Fit.ofArguments first.raw second) expected.arguments
          (candidate.arguments.map raw) := by
    intro candidate
    rw [List.zipWith_map_right]
  have lengths := congrArg List.length arguments
  rw [List.length_map, List.length_map] at lengths
  rw [fit, fit, raws, lengths, fits, fits, arguments]

/-- Candidates with the same normal form are accepted alike. -/
theorem accepts_eq_of_unplaced_eq {expected : Descriptor} (same : left.unplaced = right.unplaced) :
    expected.accepts left = expected.accepts right := by
  have raws : ∀ descriptors : List Descriptor,
      (descriptors.map unplaced).map raw = descriptors.map raw := by
    intro descriptors
    rw [List.map_map]
    exact List.map_congr_left fun descriptor _ => raw_unplaced descriptor
  have arguments : left.arguments.map raw = right.arguments.map raw := by
    rw [← raws, arguments_eq_of_unplaced_eq same, raws]
  rw [accepts, accepts, fit_eq_of_raws (raw_eq_of_unplaced_eq same) arguments]

end Descriptor

end GenericTypes
