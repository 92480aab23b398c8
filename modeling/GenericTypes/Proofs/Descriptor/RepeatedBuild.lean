import GenericTypes.Proofs.Descriptor.Build
import GenericTypes.Proofs.Descriptor.Equivalence

/-! # Builds that are repeated

Building a draft changes nothing in it, so it can be built again, at another address. Whether it can
be built at all depends on the raw types in it only. What two builds give looks the same, but every
draft inside makes a new node each time, and new markers are not equal. Finished descriptors are
attached as they are: they stand at the same places of both results, markers or not, so they never
tell the results apart. -/

namespace GenericTypes

/-! ## The drafts in a draft -/

mutual

/-- The drafts in a draft: the draft itself and the drafts in its arguments. -/
def Draft.drafts : Draft → List Draft
  | ⟨raw, arguments, identity⟩ => ⟨raw, arguments, identity⟩ :: Argument.allDrafts arguments

/-- The drafts in an argument. There are none in a raw type or in what is finished. -/
def Argument.drafts : Argument → List Draft
  | .raw _ => []
  | .draft inner => inner.drafts
  | .built _ => []

/-- The drafts in several arguments. -/
def Argument.allDrafts : List Argument → List Draft
  | [] => []
  | argument :: rest => argument.drafts ++ Argument.allDrafts rest

end

/-- What holds of all drafts in a draft holds of the draft and of all drafts in its arguments. -/
theorem Draft.forall_drafts_iff {P : Draft → Prop} {draft : Draft} :
    (∀ inner ∈ draft.drafts, P inner) ↔
      P draft ∧ ∀ inner ∈ Argument.allDrafts draft.arguments, P inner := by
  cases draft
  rw [drafts, List.forall_mem_cons]

/-! ## Drafts that cannot be built -/

mutual

/-- A draft is not built if a draft in it has no raw type, and for no other reason. -/
theorem Draft.build_eq_error_iff {draft : Draft} {here : Address} {cause : DescriptorError} :
    draft.build here = .error cause ↔
      cause = .incomplete ∧ ∃ inner ∈ draft.drafts, inner.raw = none := by
  match draft with
  | ⟨none, arguments, identity⟩ =>
    rw [Draft.build, Draft.drafts, Except.error.injEq, eq_comm]
    exact (and_iff_left ⟨_, List.mem_cons_self, rfl⟩).symm
  | ⟨some raw, arguments, identity⟩ =>
    have inside : (∃ inner ∈ (Draft.mk (some raw) arguments identity).drafts, inner.raw = none) ↔
        ∃ inner ∈ Argument.allDrafts arguments, inner.raw = none := by
      simp [Draft.drafts]
    have arguments_iff : Argument.buildAll here 0 arguments = .error cause ↔
        cause = .incomplete ∧ ∃ inner ∈ Argument.allDrafts arguments, inner.raw = none :=
      Argument.buildAll_eq_error_iff
    rw [inside, ← arguments_iff, Draft.build]
    exact bind_pure_eq_error_iff

/-- An argument is not built if a draft in it has no raw type, and for no other reason. -/
theorem Argument.build_eq_error_iff {argument : Argument} {here : Address}
    {cause : DescriptorError} :
    argument.build here = .error cause ↔
      cause = .incomplete ∧ ∃ inner ∈ argument.drafts, inner.raw = none := by
  match argument with
  | .raw type => simp [Argument.build, Argument.drafts]
  | .draft inner =>
    rw [Argument.build, Argument.drafts]
    exact Draft.build_eq_error_iff
  | .built descriptor => simp [Argument.build, Argument.drafts]

/-- Arguments are not built if a draft in them has no raw type, and for no other reason. -/
theorem Argument.buildAll_eq_error_iff {arguments : List Argument} {here : Address} {index : Nat}
    {cause : DescriptorError} :
    Argument.buildAll here index arguments = .error cause ↔
      cause = .incomplete ∧ ∃ inner ∈ Argument.allDrafts arguments, inner.raw = none := by
  match arguments with
  | [] => simp [Argument.buildAll, Argument.allDrafts]
  | argument :: rest =>
    have head : ∀ cause, argument.build (here.child index) = .error cause ↔
        cause = .incomplete ∧ ∃ inner ∈ argument.drafts, inner.raw = none :=
      fun _ => Argument.build_eq_error_iff
    have tail : Argument.buildAll here (index + 1) rest = .error cause ↔
        cause = .incomplete ∧ ∃ inner ∈ Argument.allDrafts rest, inner.raw = none :=
      Argument.buildAll_eq_error_iff
    rw [Argument.buildAll, Argument.allDrafts]
    simp only [List.mem_append, or_and_right, exists_or]
    cases built : argument.build (here.child index) with
    | error other =>
      obtain ⟨rfl, missing⟩ := (head other).1 built
      rw [and_iff_left (.inl missing), eq_comm (a := cause)]
      exact Iff.of_eq (Except.error.injEq ..)
    | ok descriptor =>
      -- the first argument is complete, so it depends on the others
      have complete : ¬∃ inner ∈ argument.drafts, inner.raw = none := by
        intro missing
        rw [(head .incomplete).2 ⟨rfl, missing⟩] at built
        cases built
      rw [or_iff_right complete, ← tail]
      exact bind_pure_eq_error_iff

end

/-! ## What two builds have in common -/

/-- Whether something about descriptors depends on raw types and arguments only. -/
def Descriptor.DependsOnParts {β : Type} (g : Descriptor → β) : Prop :=
  ∀ left right : Descriptor, left.raw = right.raw → left.arguments.map g = right.arguments.map g →
    g left = g right

/-- The canonical text depends on raw types and arguments only. -/
theorem Descriptor.dependsOnParts_canonical : DependsOnParts canonical :=
  fun _ _ raw texts => canonical_congr (congrArg RawType.name raw) texts

/-- The depth depends on raw types and arguments only. -/
theorem Descriptor.dependsOnParts_depth : DependsOnParts depth := by
  intro left right _ depths
  have deeper := congrArg (List.map (· + 1)) depths
  rw [List.map_map, List.map_map] at deeper
  rw [depth, depth]
  exact congrArg (List.foldr Nat.max 0) deeper

section Common

variable {β : Type} {g : Descriptor → β}

mutual

/-- What depends on raw types and arguments only is the same for two builds. -/
theorem Draft.map_build_eq (depends : Descriptor.DependsOnParts g) (draft : Draft)
    (first second : Address) : (draft.build first).map g = (draft.build second).map g := by
  match draft with
  | ⟨none, arguments, identity⟩ => rw [Draft.build, Draft.build]
  | ⟨some raw, arguments, identity⟩ =>
    rw [Draft.build, Draft.build]
    refine map_bind_congr (Argument.map_buildAll_eq depends arguments first second 0) ?_
    exact fun lefts rights same => congrArg Except.ok (depends _ _ rfl same)

/-- What depends on raw types and arguments only is the same for two builds of an argument. -/
theorem Argument.map_build_eq (depends : Descriptor.DependsOnParts g) (argument : Argument)
    (first second : Address) : (argument.build first).map g = (argument.build second).map g := by
  match argument with
  | .raw type =>
    rw [Argument.build, Argument.build]
    exact congrArg Except.ok (depends _ _ rfl rfl)
  | .draft inner =>
    rw [Argument.build, Argument.build]
    exact Draft.map_build_eq depends inner first second
  | .built descriptor => rw [Argument.build, Argument.build]

/-- What depends on raw types and arguments only is the same for two builds of several arguments. -/
theorem Argument.map_buildAll_eq (depends : Descriptor.DependsOnParts g)
    (arguments : List Argument) (first second : Address) (index : Nat) :
    (Argument.buildAll first index arguments).map (List.map g)
      = (Argument.buildAll second index arguments).map (List.map g) := by
  match arguments with
  | [] => rw [Argument.buildAll, Argument.buildAll]
  | argument :: rest =>
    rw [Argument.buildAll, Argument.buildAll]
    refine map_bind_congr
      (Argument.map_build_eq depends argument (first.child index) (second.child index)) ?_
    intro left right same
    refine map_bind_congr (Argument.map_buildAll_eq depends rest first second (index + 1)) ?_
    intro lefts rights others
    exact congrArg Except.ok (congrArg₂ List.cons same others)

end

end Common

/-! ## Equality of two builds -/

/-- The parts of different addresses differ. -/
theorem Address.child_ne_child {first second : Address} (apart : first ≠ second) (index : Nat) :
    first.child index ≠ second.child index := by
  intro same
  obtain ⟨operation, path⟩ := first
  obtain ⟨other, long⟩ := second
  simp only [child, Address.mk.injEq, List.cons.injEq, true_and] at same
  exact apart (congrArg₂ Address.mk same.1 same.2)

mutual

/-- Two builds of a draft are equal exactly if no draft in it makes a marker. -/
theorem Draft.equal_build_iff {draft : Draft} {first second : Address} (apart : first ≠ second)
    {left right : Descriptor} (leftBuilt : draft.build first = .ok left)
    (rightBuilt : draft.build second = .ok right) :
    left.equal right = true ↔ ∀ inner ∈ draft.drafts, inner.identity = false := by
  obtain ⟨raw, lefts, known, leftArguments, rfl⟩ := Draft.build_eq_ok_iff.1 leftBuilt
  obtain ⟨type, rights, same, rightArguments, rfl⟩ := Draft.build_eq_ok_iff.1 rightBuilt
  cases known.symm.trans same
  rw [Draft.forall_drafts_iff]
  match draft with
  | ⟨_, arguments, true⟩ =>
    refine iff_of_false ?_ fun none => Bool.noConfusion none.1
    rw [Descriptor.equal_iff_of_identity rfl]
    exact fun same => apart same.2
  | ⟨_, arguments, false⟩ =>
    rw [Descriptor.equal_eq rfl rfl, Bool.and_eq_true, and_iff_right (RawType.beq_iff.2 rfl),
      and_iff_right rfl]
    exact Argument.equalAll_buildAll_iff apart leftArguments rightArguments

/-- Two builds of an argument are equal exactly if no draft in it makes a marker. -/
theorem Argument.equal_build_iff {argument : Argument} {first second : Address}
    (apart : first ≠ second) {left right : Descriptor}
    (leftBuilt : argument.build first = .ok left) (rightBuilt : argument.build second = .ok right) :
    left.equal right = true ↔ ∀ inner ∈ argument.drafts, inner.identity = false := by
  match argument with
  | .raw type =>
    cases leftBuilt
    cases rightBuilt
    refine iff_of_true ?_ fun inner mem => by cases mem
    exact Descriptor.equal_of_unplaced_eq (Descriptor.unplaced_eq_of_parts rfl rfl rfl rfl)
  | .draft inner =>
    rw [Argument.build] at leftBuilt rightBuilt
    rw [Argument.drafts]
    exact Draft.equal_build_iff apart leftBuilt rightBuilt
  | .built descriptor =>
    -- both are the same node
    cases leftBuilt
    cases rightBuilt
    refine iff_of_true ?_ fun inner mem => by cases mem
    exact Descriptor.equal_of_unplaced_eq rfl

/-- Two builds of several arguments are equal exactly if no draft in them makes a marker. -/
theorem Argument.equalAll_buildAll_iff {arguments : List Argument} {first second : Address}
    (apart : first ≠ second) {index : Nat} {lefts rights : List Descriptor}
    (leftBuilt : Argument.buildAll first index arguments = .ok lefts)
    (rightBuilt : Argument.buildAll second index arguments = .ok rights) :
    Descriptor.equalAll lefts rights = true ↔
      ∀ inner ∈ Argument.allDrafts arguments, inner.identity = false := by
  match arguments with
  | [] =>
    cases leftBuilt
    cases rightBuilt
    exact iff_of_true rfl fun inner mem => by cases mem
  | argument :: rest =>
    rw [Argument.buildAll] at leftBuilt rightBuilt
    obtain ⟨left, leftEq, leftBuilt⟩ := ok_of_bind_eq_ok leftBuilt
    obtain ⟨lefts, leftsEq, leftBuilt⟩ := ok_of_bind_eq_ok leftBuilt
    obtain ⟨right, rightEq, rightBuilt⟩ := ok_of_bind_eq_ok rightBuilt
    obtain ⟨rights, rightsEq, rightBuilt⟩ := ok_of_bind_eq_ok rightBuilt
    cases leftBuilt
    cases rightBuilt
    rw [Descriptor.equalAll, Bool.and_eq_true, Argument.allDrafts, List.forall_mem_append,
      Argument.equal_build_iff (Address.child_ne_child apart index) leftEq rightEq,
      Argument.equalAll_buildAll_iff apart leftsEq rightsEq]

end

/-! ## What stands at a path -/

/-- The node at a path, which says at each step into which argument to go. -/
def Descriptor.at? : Descriptor → List Nat → Option Descriptor
  | descriptor, [] => some descriptor
  | descriptor, index :: path =>
    (descriptor.argument? index).bind fun argument => argument.at? path

/-- What stands at a path. No path leads into a raw type or into what is finished. -/
def Argument.at? : Argument → List Nat → Option Argument
  | argument, [] => some argument
  | .draft inner, index :: path =>
    inner.arguments[index]?.bind fun argument => argument.at? path
  | _, _ :: _ => none

/-- What stands at a path is built to what stands at this path of the result. -/
theorem Argument.exists_at?_of_build {argument part : Argument} {path : List Nat}
    (found : argument.at? path = some part) {here : Address} {result : Descriptor}
    (built : argument.build here = .ok result) :
    ∃ node, result.at? path = some node
      ∧ part.build (path.foldl Address.child here) = .ok node := by
  induction path generalizing argument here result with
  | nil =>
    cases found
    exact ⟨result, rfl, built⟩
  | cons index path ih =>
    cases argument with
    | raw type => cases found
    | built descriptor => cases found
    | draft inner =>
      obtain ⟨next, nextEq, found⟩ := Option.bind_eq_some_iff.1 found
      rw [Argument.build] at built
      obtain ⟨descriptor, argumentEq, built⟩ := Draft.exists_argument_of_build built nextEq
      obtain ⟨node, nodeEq, partEq⟩ := ih found built
      refine ⟨node, ?_, partEq⟩
      rw [Descriptor.at?, argumentEq, Option.bind_some, nodeEq]

/-- What is finished stands unchanged where it has been put. -/
theorem Draft.at?_eq_of_built {draft : Draft} {path : List Nat} {descriptor : Descriptor}
    (found : (Argument.draft draft).at? path = some (.built descriptor)) {here : Address}
    {result : Descriptor} (built : draft.build here = .ok result) :
    result.at? path = some descriptor := by
  have whole : (Argument.draft draft).build here = .ok result := by rwa [Argument.build]
  obtain ⟨node, nodeEq, same⟩ := Argument.exists_at?_of_build found whole
  cases same
  exact nodeEq

/-! ## Two builds -/

/-- What depends on raw types and arguments only is the same for two results of one draft. -/
theorem Draft.eq_of_build {β : Type} {g : Descriptor → β} (depends : Descriptor.DependsOnParts g)
    {draft : Draft} {first second : Address} {left right : Descriptor}
    (leftBuilt : draft.build first = .ok left) (rightBuilt : draft.build second = .ok right) :
    g left = g right := by
  have same := Draft.map_build_eq depends draft first second
  rw [leftBuilt, rightBuilt] at same
  exact Except.ok.inj same

/-- A draft is built if the raw types of all drafts in it are known. -/
theorem Draft.exists_build {draft : Draft} (complete : ∀ inner ∈ draft.drafts, inner.raw ≠ none)
    (here : Address) : ∃ result, draft.build here = .ok result := by
  cases built : draft.build here with
  | error cause =>
    obtain ⟨-, inner, mem, missing⟩ := Draft.build_eq_error_iff.1 built
    exact absurd missing (complete inner mem)
  | ok result => exact ⟨result, rfl⟩

/-- A draft that can be built at one address can be built at every address. -/
theorem Draft.exists_build_of_build {draft : Draft} {place : Address} {base : Descriptor}
    (built : draft.build place = .ok base) (here : Address) :
    ∃ result, draft.build here = .ok result := by
  refine Draft.exists_build (fun inner mem missing => ?_) here
  rw [Draft.build_eq_error_iff.2 ⟨rfl, inner, mem, missing⟩] at built
  cases built

/-- **A draft can be built again.** It cannot be built if a draft in it has no raw type, and this is
the only error. Otherwise two builds, each at an address of its own, give descriptors with the same
canonical text and the same depth, and these are equal, with equal fingerprints, exactly if no draft
in it makes a marker. What is finished, a marker or not, stands unchanged at its place in both. -/
theorem Draft.build_twice (draft : Draft) {first second : Address} (apart : first ≠ second) :
    (∀ here cause, draft.build here = .error cause ↔
        cause = .incomplete ∧ ∃ inner ∈ draft.drafts, inner.raw = none)
      ∧ ((∀ inner ∈ draft.drafts, inner.raw ≠ none) →
        ∃ left right : Descriptor, draft.build first = .ok left ∧ draft.build second = .ok right
          ∧ left.canonical = right.canonical
          ∧ left.depth = right.depth
          ∧ ((left == right) = true ↔ ∀ inner ∈ draft.drafts, inner.identity = false)
          ∧ (left.fingerprint = right.fingerprint ↔ ∀ inner ∈ draft.drafts, inner.identity = false)
          ∧ ∀ path descriptor, (Argument.draft draft).at? path = some (.built descriptor) →
            left.at? path = some descriptor ∧ right.at? path = some descriptor) := by
  refine ⟨fun here cause => Draft.build_eq_error_iff, fun complete => ?_⟩
  obtain ⟨left, leftBuilt⟩ := Draft.exists_build complete first
  obtain ⟨right, rightBuilt⟩ := Draft.exists_build complete second
  have equal_iff := Draft.equal_build_iff apart leftBuilt rightBuilt
  refine ⟨left, right, leftBuilt, rightBuilt,
    Draft.eq_of_build Descriptor.dependsOnParts_canonical leftBuilt rightBuilt,
    Draft.eq_of_build Descriptor.dependsOnParts_depth leftBuilt rightBuilt, equal_iff,
    Descriptor.equal_iff_fingerprint_eq.symm.trans equal_iff, fun path descriptor found => ?_⟩
  exact ⟨Draft.at?_eq_of_built found leftBuilt, Draft.at?_eq_of_built found rightBuilt⟩

/-- A pair of a list and of a marker that is finished: both builds hold the marker and are equal. If
the draft of the list makes a marker itself they are not. -/
theorem Draft.build_twice_pair :
    let list : Draft := .ofRaw (.ofDeclaration (.interface "List" ["E"] []))
    let marker : Descriptor := ⟨⟨0, []⟩, .ofDeclaration (.top "Root"), [], true⟩
    let pair (inner : Draft) : Draft :=
      ⟨some (.ofDeclaration (.interface "Pair" ["A", "B"] [])), [.draft inner, .built marker],
        false⟩
    (∃ left right : Descriptor, (pair list).build ⟨1, []⟩ = .ok left
        ∧ (pair list).build ⟨2, []⟩ = .ok right ∧ (left == right) = true
        ∧ left.at? [1] = some marker ∧ right.at? [1] = some marker)
      ∧ ∃ left right : Descriptor, (pair (list.setIdentity true)).build ⟨1, []⟩ = .ok left
        ∧ (pair (list.setIdentity true)).build ⟨2, []⟩ = .ok right ∧ (left == right) = false := by
  intro list marker pair
  have apart : (⟨1, []⟩ : Address) ≠ ⟨2, []⟩ := by decide
  have complete : ∀ identity, ∀ inner ∈ (pair (list.setIdentity identity)).drafts,
      inner.raw ≠ none := by
    simp [pair, list, drafts, Argument.allDrafts, Argument.drafts, ofRaw, setIdentity]
  constructor
  · obtain ⟨left, right, leftBuilt, rightBuilt, -, -, equal_iff, -, attached⟩ :=
      (build_twice (pair list) apart).2 (complete false)
    refine ⟨left, right, leftBuilt, rightBuilt, equal_iff.2 ?_, attached [1] marker rfl⟩
    simp [pair, list, drafts, Argument.allDrafts, Argument.drafts, ofRaw]
  · obtain ⟨left, right, leftBuilt, rightBuilt, -, -, equal_iff, -⟩ :=
      (build_twice (pair (list.setIdentity true)) apart).2 (complete true)
    refine ⟨left, right, leftBuilt, rightBuilt, eq_false_of_ne_true fun equal => ?_⟩
    have plain := equal_iff.1 equal (list.setIdentity true) (by
      simp [pair, drafts, Argument.allDrafts, Argument.drafts, list, ofRaw, setIdentity])
    cases plain

end GenericTypes
