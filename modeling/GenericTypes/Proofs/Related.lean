import Mathlib.Data.List.Forall2
import GenericTypes.Proofs.Success

/-! # Lists that are related position by position

What a relation between the entries of two lists says about the members of either one. -/

namespace GenericTypes

variable {α β : Type} {R S : α → β → Prop} {lefts : List α} {rights : List β}

/-- Every entry of the second one of two lists that are related position by position is related to
one of the first. -/
theorem exists_mem_of_forall₂ (related : List.Forall₂ R lefts rights) {right : β}
    (mem : right ∈ rights) : ∃ left ∈ lefts, R left right := by
  induction related with
  | nil => cases mem
  | cons head _ ih =>
    rcases List.mem_cons.1 mem with rfl | mem
    · exact ⟨_, List.mem_cons_self, head⟩
    · obtain ⟨left, inside, related⟩ := ih mem
      exact ⟨left, List.mem_cons_of_mem _ inside, related⟩

/-- Lists are related by whatever follows from their relation for the members of the first one. -/
theorem forall₂_of_mem (related : List.Forall₂ R lefts rights)
    (each : ∀ left ∈ lefts, ∀ right, R left right → S left right) :
    List.Forall₂ S lefts rights :=
  ((List.forall₂_and_left lefts rights).2 ⟨each, related⟩).imp
    fun _ right both => both.1 right both.2

/-- A list is mapped successfully exactly if its elements are mapped, position by position, to those
of the result. -/
theorem mapM_eq_ok_iff_forall₂ {ε : Type} {f : α → Except ε β} :
    lefts.mapM f = .ok rights
      ↔ List.Forall₂ (fun left right => f left = .ok right) lefts rights := by
  rw [mapM_eq_ok_iff, List.forall₂_iff_get]
  refine and_congr eq_comm ⟨fun each index left right => ?_, fun each index input result => ?_⟩
  · exact each index _ _ (List.getElem?_eq_getElem left) (List.getElem?_eq_getElem right)
  · intro input result
    obtain ⟨left, rfl⟩ := List.getElem?_eq_some_iff.1 input
    obtain ⟨right, rfl⟩ := List.getElem?_eq_some_iff.1 result
    exact each index left right

end GenericTypes
