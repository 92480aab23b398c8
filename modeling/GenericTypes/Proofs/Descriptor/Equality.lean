import GenericTypes.Descriptor.Equality
import GenericTypes.Proofs.Descriptor.Canonical

/-! # What equality keeps

Raw types are equal when their names are. A descriptor without markers is therefore equal to the
descriptor that is made of other raw types with the same names and has been erased; and what is
equal to a descriptor without markers has the same canonical text and the same depth. -/

namespace GenericTypes

namespace Descriptor

/-! ## Other raw types with the same names -/

/-- The descriptor that is made of other raw types. -/
def mapRaw (f : RawType → RawType) (descriptor : Descriptor) : Descriptor :=
  { descriptor with
    raw := f descriptor.raw
    arguments := descriptor.arguments.map fun argument => argument.mapRaw f }
termination_by sizeOf descriptor
decreasing_by exact sizeOf_lt_of_mem_arguments ‹_›

variable {f : RawType → RawType}

@[simp] theorem raw_mapRaw (descriptor : Descriptor) :
    (descriptor.mapRaw f).raw = f descriptor.raw := by
  rw [mapRaw]

@[simp] theorem arguments_mapRaw (descriptor : Descriptor) :
    (descriptor.mapRaw f).arguments = descriptor.arguments.map (mapRaw f) := by
  rw [mapRaw]

/-- Nothing changes when every raw type stays. -/
theorem mapRaw_id (descriptor : Descriptor) : descriptor.mapRaw id = descriptor := by
  induction descriptor using inductionOnArguments with
  | step descriptor ih =>
    have arguments : descriptor.arguments.map (mapRaw id) = descriptor.arguments := by
      rw [List.map_congr_left ih, List.map_id']
    rw [mapRaw, arguments]
    cases descriptor
    rfl

/-- What holds of the new raw types holds of all nodes. -/
theorem forall_nodes_mapRaw {P : RawType → Prop} {descriptor : Descriptor}
    (holds : ∀ node ∈ descriptor.nodes, P (f node.raw)) :
    ∀ node ∈ (descriptor.mapRaw f).nodes, P node.raw := by
  induction descriptor using inductionOnArguments with
  | step descriptor ih =>
    rw [forall_nodes_iff] at holds
    rw [forall_nodes_iff, raw_mapRaw, arguments_mapRaw, List.forall_mem_map]
    exact ⟨holds.1, fun argument mem => ih argument mem (holds.2 argument mem)⟩

/-- Other raw types with the same names give the same canonical text. -/
theorem canonical_mapRaw (names : ∀ raw, (f raw).name = raw.name) (descriptor : Descriptor) :
    (descriptor.mapRaw f).canonical = descriptor.canonical := by
  induction descriptor using inductionOnArguments with
  | step descriptor ih =>
    apply canonical_congr
    · rw [raw_mapRaw, names]
    · rw [arguments_mapRaw, List.map_map]
      exact List.map_congr_left ih

/-- Other raw types give the same depth. -/
theorem depth_mapRaw (descriptor : Descriptor) :
    (descriptor.mapRaw f).depth = descriptor.depth := by
  induction descriptor using inductionOnArguments with
  | step descriptor ih =>
    have depths : ∀ argument ∈ descriptor.arguments,
        (argument.mapRaw f).depth + 1 = argument.depth + 1 :=
      fun argument mem => congrArg (· + 1) (ih argument mem)
    rw [depth, depth, arguments_mapRaw, List.map_map]
    exact congrArg (List.foldr Nat.max 0) (List.map_congr_left depths)

/-! ## Equality with the erased descriptor -/

/-- Descriptors that are no markers are equal when their raw types have the same name and their
arguments are equal. -/
theorem equal_eq {left right : Descriptor} (leftPlain : left.identity = false)
    (rightPlain : right.identity = false) :
    left.equal right = (left.raw == right.raw && equalAll left.arguments right.arguments) := by
  cases left
  cases right
  cases leftPlain
  cases rightPlain
  rw [equal]
  rfl

/-- Descriptors that are equal to what has been made of them are so in lists as well. -/
theorem equalAll_erasedAll_mapRaw {descriptors : List Descriptor}
    (same : ∀ descriptor ∈ descriptors, ∀ here,
      ((descriptor.mapRaw f).erased here).equal descriptor = true)
    (here : Address) (index : Nat) :
    equalAll (erasedAll here index (descriptors.map (mapRaw f))) descriptors = true := by
  induction descriptors generalizing index with
  | nil => rfl
  | cons first rest ih =>
    rw [List.forall_mem_cons] at same
    rw [List.map_cons, erasedAll, equalAll, same.1, ih same.2, Bool.and_true]

/-- A descriptor without markers is equal to what is left of it after its raw types were exchanged
for others with the same names and it was erased. -/
theorem equal_erased_mapRaw (names : ∀ raw, (f raw).name = raw.name) {descriptor : Descriptor}
    (plain : ∀ node ∈ descriptor.nodes, node.identity = false) (here : Address) :
    ((descriptor.mapRaw f).erased here).equal descriptor = true := by
  induction descriptor using inductionOnArguments generalizing here with
  | step descriptor ih =>
    rw [forall_nodes_iff] at plain
    rw [equal_eq (identity_erased here _) plain.1, raw_erased, arguments_erased, raw_mapRaw,
      arguments_mapRaw, Bool.and_eq_true, RawType.beq_iff]
    have arguments : ∀ argument ∈ descriptor.arguments, ∀ here,
        ((argument.mapRaw f).erased here).equal argument = true :=
      fun argument mem here => ih argument mem (plain.2 argument mem) here
    exact ⟨names descriptor.raw, equalAll_erasedAll_mapRaw arguments here 0⟩

/-- Lists of descriptors are equal as lists when they are equal position by position. -/
theorem beq_eq_equalAll (lefts rights : List Descriptor) :
    (lefts == rights) = equalAll lefts rights := by
  induction lefts generalizing rights with
  | nil =>
    cases rights with
    | nil => rfl
    | cons right rights => rfl
  | cons left lefts ih =>
    cases rights with
    | nil => rfl
    | cons right rights =>
      rw [List.cons_beq_cons, ih, equalAll]
      rfl

/-- Lists of descriptors without markers are equal to what is left of them after their raw types
were exchanged for others with the same names and they were erased. -/
theorem erasedAll_mapRaw_beq (names : ∀ raw, (f raw).name = raw.name)
    {descriptors : List Descriptor}
    (plain : ∀ descriptor ∈ descriptors, ∀ node ∈ descriptor.nodes, node.identity = false)
    (here : Address) (index : Nat) :
    (erasedAll here index (descriptors.map (mapRaw f)) == descriptors) = true := by
  rw [beq_eq_equalAll]
  apply equalAll_erasedAll_mapRaw
  intro descriptor mem here
  exact equal_erased_mapRaw names (plain descriptor mem) here

/-- A descriptor without markers is equal to what is left of it after erasing. -/
theorem erased_beq {descriptor : Descriptor}
    (plain : ∀ node ∈ descriptor.nodes, node.identity = false) (here : Address) :
    (descriptor.erased here == descriptor) = true := by
  have equal := equal_erased_mapRaw (f := id) (fun _ => rfl) plain here
  rwa [mapRaw_id] at equal

/-- Descriptors without markers are equal to what is left of them after erasing. -/
theorem erasedAll_beq {descriptors : List Descriptor}
    (plain : ∀ descriptor ∈ descriptors, ∀ node ∈ descriptor.nodes, node.identity = false)
    (here : Address) (index : Nat) :
    (erasedAll here index descriptors == descriptors) = true := by
  have same : descriptors.map (mapRaw id) = descriptors := by
    rw [funext mapRaw_id, List.map_id']
  have equal := erasedAll_mapRaw_beq (f := id) (fun _ => rfl) plain here index
  rwa [same] at equal

/-! ## What equal descriptors have in common -/

/-- What equal descriptors have in common, equal lists of descriptors have in common. -/
theorem map_eq_of_equalAll {β : Type} {g : Descriptor → β} {lefts rights : List Descriptor}
    (equal : equalAll lefts rights = true)
    (same : ∀ left ∈ lefts, ∀ right ∈ rights, left.equal right = true → g right = g left) :
    rights.map g = lefts.map g := by
  induction lefts generalizing rights with
  | nil =>
    cases rights with
    | nil => rfl
    | cons right rights => cases equal
  | cons left lefts ih =>
    cases rights with
    | nil => cases equal
    | cons right rights =>
      rw [equalAll, Bool.and_eq_true] at equal
      have rest : rights.map g = lefts.map g := by
        apply ih equal.2
        intro left mem right member
        exact same left (List.mem_cons_of_mem _ mem) right (List.mem_cons_of_mem _ member)
      rw [List.map_cons, List.map_cons, rest,
        same left List.mem_cons_self right List.mem_cons_self equal.1]

/-- Each descriptor in one of two equal lists is equal to one in the other. -/
theorem exists_of_equalAll {lefts rights : List Descriptor} (equal : equalAll lefts rights = true)
    {right : Descriptor} (mem : right ∈ rights) : ∃ left ∈ lefts, left.equal right = true := by
  induction lefts generalizing rights with
  | nil =>
    cases rights with
    | nil => cases mem
    | cons first rest => cases equal
  | cons left lefts ih =>
    cases rights with
    | nil => cases mem
    | cons first rest =>
      rw [equalAll, Bool.and_eq_true] at equal
      rcases List.mem_cons.1 mem with rfl | mem
      · exact ⟨left, List.mem_cons_self, equal.1⟩
      · obtain ⟨other, member, same⟩ := ih equal.2 mem
        exact ⟨other, List.mem_cons_of_mem _ member, same⟩

/-- What is equal to a descriptor that is no marker is none either, has a raw type of the same name,
and equal arguments. -/
theorem equal_cases {left right : Descriptor} (equal : left.equal right = true)
    (leftPlain : left.identity = false) :
    right.identity = false ∧ left.raw.name = right.raw.name
      ∧ equalAll left.arguments right.arguments = true := by
  have rightPlain : right.identity = false := by
    apply eq_false_of_ne_true
    intro marker
    cases left
    cases right
    -- a marker is equal to markers only
    cases leftPlain
    cases marker
    rw [Descriptor.equal] at equal
    cases equal
  rw [equal_eq leftPlain rightPlain, Bool.and_eq_true, RawType.beq_iff] at equal
  exact ⟨rightPlain, equal.1, equal.2⟩

/-- What is equal to a descriptor without markers has the same canonical text. -/
theorem canonical_eq_of_equal {left right : Descriptor}
    (plain : ∀ node ∈ left.nodes, node.identity = false) (equal : left.equal right = true) :
    right.canonical = left.canonical := by
  induction left using inductionOnArguments generalizing right with
  | step left ih =>
    rw [forall_nodes_iff] at plain
    obtain ⟨-, names, arguments⟩ := equal_cases equal plain.1
    refine canonical_congr names.symm (map_eq_of_equalAll arguments ?_)
    exact fun argument mem other _ same => ih argument mem (plain.2 argument mem) same

/-- What is equal to a descriptor without markers has the same depth. -/
theorem depth_eq_of_equal {left right : Descriptor}
    (plain : ∀ node ∈ left.nodes, node.identity = false) (equal : left.equal right = true) :
    right.depth = left.depth := by
  induction left using inductionOnArguments generalizing right with
  | step left ih =>
    rw [forall_nodes_iff] at plain
    obtain ⟨-, -, arguments⟩ := equal_cases equal plain.1
    have depths : right.arguments.map (fun argument => argument.depth + 1)
        = left.arguments.map fun argument => argument.depth + 1 := by
      apply map_eq_of_equalAll arguments
      intro argument mem other _ same
      rw [ih argument mem (plain.2 argument mem) same]
    rw [depth, depth, depths]

/-- What is equal to a descriptor without markers has none, and what holds of the names of the one
holds of the names of the other. -/
theorem forall_nodes_of_equal {P : String → Prop} {left right : Descriptor}
    (plain : ∀ node ∈ left.nodes, node.identity = false ∧ P node.raw.name)
    (equal : left.equal right = true) :
    ∀ node ∈ right.nodes, node.identity = false ∧ P node.raw.name := by
  induction left using inductionOnArguments generalizing right with
  | step left ih =>
    rw [forall_nodes_iff] at plain
    obtain ⟨rightPlain, names, arguments⟩ := equal_cases equal plain.1.1
    rw [forall_nodes_iff, ← names]
    refine ⟨⟨rightPlain, plain.1.2⟩, fun argument mem => ?_⟩
    obtain ⟨other, member, same⟩ := exists_of_equalAll arguments mem
    exact ih other member (plain.2 other member) same

end Descriptor

end GenericTypes
