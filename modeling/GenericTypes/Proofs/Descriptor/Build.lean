import GenericTypes.Descriptor.Draft
import GenericTypes.Proofs.Success

/-! # Drafts that are built

What building a draft comes to, part by part: the node that is made for the draft, and the arguments
that are built from left to right, each at its own address. -/

namespace GenericTypes

/-- A draft is built when its raw type is known and its arguments are built. -/
theorem Draft.build_eq_ok_iff {draft : Draft} {here : Address} {descriptor : Descriptor} :
    draft.build here = .ok descriptor ↔
      ∃ raw arguments, draft.raw = some raw
        ∧ Argument.buildAll here 0 draft.arguments = .ok arguments
        ∧ descriptor = ⟨here, raw, arguments, draft.identity⟩ := by
  match draft with
  | ⟨none, arguments, identity⟩ =>
    rw [build]
    refine iff_of_false (fun built => by cases built) ?_
    rintro ⟨raw, descriptors, known, -⟩
    cases known
  | ⟨some raw, arguments, identity⟩ =>
    rw [build]
    constructor
    · intro built
      obtain ⟨descriptors, argumentsEq, built⟩ := ok_of_bind_eq_ok built
      cases built
      exact ⟨raw, descriptors, rfl, argumentsEq, rfl⟩
    · rintro ⟨_, descriptors, ⟨⟩, argumentsEq, rfl⟩
      rw [argumentsEq]
      rfl

/-- A draft is built where the operation is. -/
theorem Draft.address_of_build {draft : Draft} {here : Address} {descriptor : Descriptor}
    (built : draft.build here = .ok descriptor) : descriptor.address = here := by
  obtain ⟨_, _, -, -, rfl⟩ := Draft.build_eq_ok_iff.1 built
  rfl

/-- Arguments are built one by one, each at its own address. -/
theorem Argument.buildAll_eq_mapM {here : Address} {index : Nat} (arguments : List Argument) :
    Argument.buildAll here index arguments
      = (arguments.zipIdx index).mapM fun argument => argument.1.build (here.child argument.2) := by
  induction arguments generalizing index with
  | nil => rfl
  | cons argument rest ih => rw [buildAll, List.zipIdx_cons, List.mapM_cons, ih]

/-- Each argument of a draft is built to the argument of the result with the same index. -/
theorem Draft.exists_argument_of_build {draft : Draft} {here : Address} {result : Descriptor}
    (built : draft.build here = .ok result) {index : Nat} {argument : Argument}
    (found : draft.arguments[index]? = some argument) :
    ∃ descriptor, result.argument? index = some descriptor
      ∧ argument.build (here.child index) = .ok descriptor := by
  obtain ⟨raw, descriptors, -, argumentsEq, rfl⟩ := Draft.build_eq_ok_iff.1 built
  rw [Argument.buildAll_eq_mapM, mapM_zipIdx_eq_ok_iff] at argumentsEq
  obtain ⟨lengths, each⟩ := argumentsEq
  obtain ⟨inside, -⟩ := List.getElem?_eq_some_iff.1 found
  have there := List.getElem?_eq_getElem (lengths.symm ▸ inside)
  have argumentEq := each index argument _ found there
  rw [Nat.zero_add] at argumentEq
  exact ⟨_, there, argumentEq⟩

/-- Arguments are built from left to right. -/
theorem Argument.buildAll_append_singleton {arguments : List Argument} {argument : Argument}
    {here : Address} {index : Nat} {results : List Descriptor} {result : Descriptor}
    (built : Argument.buildAll here index arguments = .ok results)
    (last : argument.build (here.child (index + arguments.length)) = .ok result) :
    Argument.buildAll here index (arguments ++ [argument]) = .ok (results ++ [result]) := by
  rw [buildAll_eq_mapM] at built
  rw [buildAll_eq_mapM, List.zipIdx_append, List.mapM_append, built, List.zipIdx_cons,
    List.zipIdx_nil, List.mapM_cons, last]
  rfl

/-- A draft with one more argument is built with one more argument. -/
theorem Draft.build_add {draft : Draft} {argument : Argument} {here : Address}
    {base result : Descriptor} (built : draft.build here = .ok base)
    (last : argument.build (here.child draft.arguments.length) = .ok result) :
    (draft.add argument).build here
      = .ok { base with arguments := base.arguments ++ [result] } := by
  obtain ⟨raw, descriptors, known, argumentsEq, rfl⟩ := Draft.build_eq_ok_iff.1 built
  rw [← Nat.zero_add draft.arguments.length] at last
  exact Draft.build_eq_ok_iff.2
    ⟨raw, _, known, Argument.buildAll_append_singleton argumentsEq last, rfl⟩

end GenericTypes
