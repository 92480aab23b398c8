import GenericTypes.Proofs.Registry.Populated

/-! # Registries as they grow

Users start from a root alone, under any name, or from the standard registry. All registries that
calls lead to from there are well-formed, and no call takes an answer back: a definition keeps every
answer, and a look-up changes none. -/

namespace GenericTypes

namespace Registry

variable {registry : Registry} {name : String} {raw : RawType}

/-- The registries that users start from. -/
inductive IsInitial : Registry → Prop
  /-- A root alone. -/
  | ofTop (topName : String) : IsInitial (ofTop topName)
  /-- The standard registry. -/
  | standard : IsInitial standard

/-- The registries that calls lead to from one that users start from. -/
def IsReachable (registry : Registry) : Prop :=
  ∃ start, IsInitial start ∧ ReachableFrom start registry

/-- What calls lead to from the standard registry is reachable. -/
theorem ReachableFrom.isReachable (reached : ReachableFrom standard registry) :
    registry.IsReachable :=
  ⟨standard, .standard, reached⟩

/-- What holds of every start and is preserved by every definition and every look-up holds of every
registry that calls lead to. -/
theorem IsReachable.preserves {P : Registry → Prop} (reached : registry.IsReachable)
    (define : ∀ registry definition, P registry → P (registry.define definition).2)
    (remember : ∀ registry name, P registry → P (registry.remember name))
    (start : ∀ start, IsInitial start → P start) : P registry := by
  obtain ⟨first, initial, reached⟩ := reached
  exact reached.preserves define remember (start first initial)

/-! ## Well-formedness -/

/-- A root alone is well-formed. -/
theorem wellFormed_ofTop (topName : String) : (ofTop topName).WellFormed where
  names_nodup := List.nodup_singleton _
  top_mem := List.mem_singleton_self _
  eq_top := fun _ mem _ => List.mem_singleton.1 mem
  legal := by
    intro declaration mem notTop
    cases List.mem_singleton.1 mem
    cases notTop
  parent_mem := by
    intro declaration mem parent above
    cases List.mem_singleton.1 mem
    cases above
  superclass_isClass := by
    intro declaration mem supertype named
    cases List.mem_singleton.1 mem
    cases named
  interface_isInterface := by
    intro declaration mem supertype named
    cases List.mem_singleton.1 mem
    cases named
  array_agrees := fun _ mem => nomatch mem

/-- Every registry that calls lead to is well-formed. -/
theorem IsReachable.wellFormed (reached : registry.IsReachable) : registry.WellFormed := by
  refine reached.preserves (fun _ definition wellFormed => wellFormed.define definition)
    (fun _ name wellFormed => wellFormed.remember name) ?_
  intro start initial
  cases initial with
  | ofTop topName => exact wellFormed_ofTop topName
  | standard => exact populated_standard.toWellFormed

/-! ## Answers -/

namespace WellFormed

/-- Declaring the type of an accepted definition keeps every answer. -/
theorem find_insert (wellFormed : registry.WellFormed) {definition : Definition}
    {declaration : Declaration} (accepted : registry.declaration definition = .ok declaration)
    (found : registry.find name = .ok raw) :
    (registry.insert declaration).find name = .ok raw := by
  obtain ⟨sound, new, -⟩ := declaration_cases accepted
  have legal := Definition.isLegal_of_fault? sound
  rw [← name_of_declaration accepted] at new legal
  rw [(wellFormed.insert_declaration accepted).find_eq_ok_iff, resolve?]
  rcases wellFormed.find_cases found with ⟨known, declared, rfl⟩ | ⟨undeclared, described⟩
  · rw [declared?_insert_of_eq_some new declared]
  · -- the name of the new type is legal, so it is not that of an array
    have different : declaration.name ≠ name := by
      rintro rfl
      exact legal.head?_ne (head?_of_array? described)
    rw [declared?_insert_of_ne different, undeclared]
    exact array?_insert_of_eq_some new described

/-- A definition keeps every answer. -/
theorem find_define (wellFormed : registry.WellFormed) (definition : Definition)
    (found : registry.find name = .ok raw) :
    (registry.define definition).2.find name = .ok raw := by
  refine (define_preserves definition
    (P := fun later => later.WellFormed ∧ later.find name = .ok raw) ?_ ?_ ⟨wellFormed, found⟩).2
  · rintro later asked ⟨wellFormed, found⟩
    exact ⟨wellFormed.remember asked, by rw [Registry.find_remember, found]⟩
  · rintro later declaration accepted ⟨wellFormed, found⟩
    exact ⟨wellFormed.insert_declaration accepted, wellFormed.find_insert accepted found⟩

end WellFormed

end Registry

end GenericTypes
