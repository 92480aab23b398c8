import GenericTypes.Proofs.Descriptor.RepeatedBuild

/-! # Descriptors that are taken apart

A descriptor becomes a draft again by taking apart its arguments down to the markers, which are
attached as they are. What is built from the draft has arguments with the same normal forms: their
nodes are new, except for the markers and what is below them. With the normal forms come equality,
the canonical text, and the markers at their places. Only a marker at the root is lost, since the
root is a new node. -/

namespace GenericTypes

namespace Descriptor

variable {left right node : Descriptor}

/-! ## What normal forms say about markers -/

/-- A marker is the only descriptor with its normal form. -/
theorem eq_of_unplaced_eq (same : left.unplaced = right.unplaced) (marker : right.identity = true) :
    left = right := by
  have kind := identity_eq_of_unplaced_eq same
  rw [marker] at kind
  rwa [unplaced_of_identity kind, unplaced_of_identity marker] at same

/-- Where the arguments have the same normal forms, they have them one by one. -/
theorem exists_argument_of_map_unplaced_eq
    (same : left.arguments.map unplaced = right.arguments.map unplaced) {index : Nat}
    {argument : Descriptor} (found : left.argument? index = some argument) :
    ∃ other, right.argument? index = some other ∧ argument.unplaced = other.unplaced := by
  have there := congrArg (·[index]?) same
  rw [argument?] at found
  simp only [List.getElem?_map, found, Option.map_some] at there
  obtain ⟨other, otherEq, forms⟩ := Option.map_eq_some_iff.1 there.symm
  exact ⟨other, otherEq, forms.symm⟩

/-- Where the arguments have the same normal forms, the markers below the root stand at the same
places. -/
theorem at?_cons_of_map_unplaced_eq
    (same : left.arguments.map unplaced = right.arguments.map unplaced)
    (marker : node.identity = true) {index : Nat} {path : List Nat}
    (found : left.at? (index :: path) = some node) : right.at? (index :: path) = some node := by
  induction path generalizing left right index with
  | nil =>
    obtain ⟨_, argumentEq, ⟨⟩⟩ := Option.bind_eq_some_iff.1 found
    obtain ⟨other, otherEq, forms⟩ := exists_argument_of_map_unplaced_eq same argumentEq
    rw [at?, otherEq, Option.bind_some, at?, eq_of_unplaced_eq forms.symm marker]
  | cons next path ih =>
    obtain ⟨argument, argumentEq, found⟩ := Option.bind_eq_some_iff.1 found
    obtain ⟨other, otherEq, forms⟩ := exists_argument_of_map_unplaced_eq same argumentEq
    rw [at?, otherEq, Option.bind_some]
    exact ih (arguments_eq_of_unplaced_eq forms) found

/-- Where the arguments have the same normal forms, they have the same canonical texts. -/
theorem map_canonical_eq_of_map_unplaced_eq {lefts rights : List Descriptor}
    (same : lefts.map unplaced = rights.map unplaced) :
    lefts.map canonical = rights.map canonical := by
  have texts : ∀ descriptors : List Descriptor,
      (descriptors.map unplaced).map canonical = descriptors.map canonical :=
    fun _ => map_map_unplaced fun argument _ => canonical_unplaced argument
  rw [← texts, same, texts]

/-! ## What is built again -/

/-- Descriptors that are taken apart are built again with the same normal forms, if this holds of
each of them. -/
theorem exists_buildAll_toArguments {descriptors : List Descriptor}
    (each : ∀ descriptor ∈ descriptors, ∀ here, ∃ result,
      descriptor.toArgument.build here = .ok result ∧ result.unplaced = descriptor.unplaced)
    (here : Address) (index : Nat) :
    ∃ results, Argument.buildAll here index (toArguments descriptors) = .ok results
      ∧ results.map unplaced = descriptors.map unplaced := by
  induction descriptors generalizing index with
  | nil => exact ⟨[], rfl, rfl⟩
  | cons descriptor rest ih =>
    rw [List.forall_mem_cons] at each
    obtain ⟨result, resultEq, form⟩ := each.1 (here.child index)
    obtain ⟨results, resultsEq, forms⟩ := ih each.2 (index + 1)
    refine ⟨result :: results, ?_, congrArg₂ List.cons form forms⟩
    rw [toArgument] at resultEq
    rw [toArguments, Argument.buildAll, resultEq, resultsEq]
    rfl

/-- A descriptor that is taken apart is built again as a new node of the same kind, with arguments
that have the same normal forms, if each argument is built again with its own. -/
theorem exists_build_toDraft_of_arguments {descriptor : Descriptor}
    (each : ∀ argument ∈ descriptor.arguments, ∀ here, ∃ result,
      argument.toArgument.build here = .ok result ∧ result.unplaced = argument.unplaced)
    (here : Address) :
    ∃ arguments, descriptor.toDraft.build here
        = .ok ⟨here, descriptor.raw, arguments, descriptor.identity⟩
      ∧ arguments.map unplaced = descriptor.arguments.map unplaced := by
  obtain ⟨address, raw, arguments, identity⟩ := descriptor
  obtain ⟨results, resultsEq, forms⟩ := exists_buildAll_toArguments each here 0
  refine ⟨results, ?_, forms⟩
  rw [toDraft, Draft.build, resultsEq]
  rfl

/-- A descriptor that is taken apart as an argument is built again with the same normal form. -/
theorem exists_build_toArgument (descriptor : Descriptor) (here : Address) :
    ∃ result, descriptor.toArgument.build here = .ok result
      ∧ result.unplaced = descriptor.unplaced := by
  induction descriptor using inductionOnArguments generalizing here with
  | step descriptor ih =>
    cases kind : descriptor.identity with
    | true =>
      rw [toArgument, if_pos kind]
      exact ⟨descriptor, rfl, rfl⟩
    | false =>
      obtain ⟨arguments, rebuiltEq, forms⟩ := exists_build_toDraft_of_arguments ih here
      rw [toArgument, if_neg (ne_true_of_eq_false kind)]
      exact ⟨_, rebuiltEq, unplaced_eq_of_parts kind kind rfl forms⟩

/-! ## Arguments of drafts -/

/-- What is built from a draft to which a descriptor has been added has, as its last argument, a
descriptor with the same normal form. -/
theorem exists_build_add_toArgument (descriptor : Descriptor) {draft : Draft} {place : Address}
    {base : Descriptor} (built : draft.build place = .ok base) (here : Address) :
    ∃ result argument, (draft.add descriptor.toArgument).build here = .ok result
      ∧ result.argument? draft.arguments.length = some argument
      ∧ argument.unplaced = descriptor.unplaced := by
  obtain ⟨first, firstEq⟩ := Draft.exists_build_of_build built here
  obtain ⟨last, lastEq, form⟩ :=
    descriptor.exists_build_toArgument (here.child draft.arguments.length)
  have whole := Draft.build_add firstEq lastEq
  have found : (draft.add descriptor.toArgument).arguments[draft.arguments.length]?
      = some descriptor.toArgument := List.getElem?_concat_length
  obtain ⟨argument, argumentEq, sameEq⟩ := Draft.exists_argument_of_build whole found
  cases lastEq.symm.trans sameEq
  exact ⟨_, last, whole, argumentEq, form⟩

/-- **Taking a descriptor apart loses nothing.** Added to a draft that can be built, a descriptor
comes back as an equal argument, and a marker as the same node. Taken apart and built again at
another address, a descriptor keeps its canonical text and whether it is a marker; the result is
equal to it exactly if it is none, and in both cases the same markers stand at the same places below
the root. -/
theorem decomposition_faithful (descriptor : Descriptor) {here : Address}
    (fresh : descriptor.address ≠ here) :
    (∀ (draft : Draft) (place : Address) (base : Descriptor), draft.build place = .ok base →
        ∃ result argument, (draft.add descriptor.toArgument).build here = .ok result
          ∧ result.argument? draft.arguments.length = some argument
          ∧ (argument == descriptor) = true
          ∧ (descriptor.identity = true → argument = descriptor))
      ∧ ∃ rebuilt, descriptor.toDraft.build here = .ok rebuilt
        ∧ rebuilt.canonical = descriptor.canonical
        ∧ rebuilt.identity = descriptor.identity
        ∧ ((rebuilt == descriptor) = true ↔ descriptor.identity = false)
        ∧ ∀ path ≠ [], ∀ node : Descriptor, node.identity = true →
          (rebuilt.at? path = some node ↔ descriptor.at? path = some node) := by
  constructor
  · intro draft place base built
    obtain ⟨result, argument, whole, found, form⟩ :=
      descriptor.exists_build_add_toArgument built here
    exact ⟨result, argument, whole, found, equal_of_unplaced_eq form, eq_of_unplaced_eq form⟩
  · obtain ⟨arguments, rebuiltEq, forms⟩ := exists_build_toDraft_of_arguments
      (fun argument (_ : argument ∈ descriptor.arguments) => argument.exists_build_toArgument) here
    refine ⟨_, rebuiltEq, canonical_congr rfl (map_canonical_eq_of_map_unplaced_eq forms), rfl,
      ?_, ?_⟩
    · cases kind : descriptor.identity with
      | true =>
        refine iff_of_false (fun equal => ?_) (fun plain => by cases plain)
        exact fresh ((equal_iff_of_identity rfl).1 equal).2.symm
      | false =>
        refine iff_of_true ?_ rfl
        exact equal_of_unplaced_eq (unplaced_eq_of_parts rfl kind rfl forms)
    · intro path nonempty node marker
      cases path with
      | nil => exact absurd rfl nonempty
      | cons index path =>
        exact ⟨at?_cons_of_map_unplaced_eq forms marker,
          at?_cons_of_map_unplaced_eq forms.symm marker⟩

/-- A pair of a leaf and of a marker is equal to what it is built to again, and the marker stands in
it as the same node. -/
theorem decomposition_faithful_pair :
    let marker : Descriptor := ⟨⟨0, []⟩, .ofDeclaration (.top "Root"), [], true⟩
    let pair : Descriptor := ⟨⟨1, []⟩, .ofDeclaration (.interface "Pair" ["A", "B"] []),
      [leaf ⟨1, [0]⟩ (.ofDeclaration (.top "Root")), marker], false⟩
    pair.address ≠ ⟨2, []⟩ ∧ ∃ rebuilt, pair.toDraft.build ⟨2, []⟩ = .ok rebuilt
      ∧ rebuilt.canonical = pair.canonical ∧ (rebuilt == pair) = true
      ∧ rebuilt.at? [1] = some marker := by
  intro marker pair
  have fresh : pair.address ≠ ⟨2, []⟩ := by decide
  obtain ⟨-, rebuilt, rebuiltEq, canonicalEq, -, equal_iff, markers⟩ :=
    pair.decomposition_faithful fresh
  exact ⟨fresh, rebuilt, rebuiltEq, canonicalEq, equal_iff.2 rfl,
    (markers [1] (List.cons_ne_nil 1 []) marker rfl).2 rfl⟩

end Descriptor

end GenericTypes
