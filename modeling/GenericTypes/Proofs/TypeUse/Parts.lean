import Mathlib.Data.List.Basic
import GenericTypes.TypeUse

/-! # Parts of uses

A use of a type is a tree: uses stand inside it as arguments, as the component of an array and as
bounds. The parts of a use are the use itself and everything that stands inside it at any depth. -/

namespace GenericTypes

namespace TypeUse

/-- The uses directly inside a use. -/
def components : TypeUse → List TypeUse
  | parameterized _ arguments => arguments
  | array component => [component]
  | parameter _ bounds => bounds
  | wildcard upper lower => upper ++ lower
  | _ => []

/-- A use inside a use is a smaller tree. -/
theorem sizeOf_lt_of_mem_components {component use : TypeUse} (mem : component ∈ use.components) :
    sizeOf component < sizeOf use := by
  cases use with
  | plain raw => cases mem
  | named name => cases mem
  | parameterized raw arguments =>
    have := List.sizeOf_lt_of_mem (show component ∈ arguments from mem)
    simp only [parameterized.sizeOf_spec]
    omega
  | array inner =>
    rw [List.mem_singleton.1 mem]
    simp only [array.sizeOf_spec]
    omega
  | parameter name bounds =>
    have := List.sizeOf_lt_of_mem (show component ∈ bounds from mem)
    simp only [parameter.sizeOf_spec]
    omega
  | wildcard upper lower =>
    simp only [wildcard.sizeOf_spec]
    rcases List.mem_append.1 mem with mem | mem
    · have := List.sizeOf_lt_of_mem mem
      omega
    · have := List.sizeOf_lt_of_mem mem
      omega
  | unnameable description => cases mem

/-- What holds of a use whenever it holds of everything directly inside it holds of every use. -/
@[elab_as_elim]
theorem inductionOnComponents {motive : TypeUse → Prop}
    (step : ∀ use : TypeUse, (∀ component ∈ use.components, motive component) → motive use)
    (use : TypeUse) : motive use :=
  step use fun component _ => inductionOnComponents step component
termination_by sizeOf use
decreasing_by exact sizeOf_lt_of_mem_components ‹_›

/-- A use and everything inside it at any depth. -/
def parts (use : TypeUse) : List TypeUse :=
  use :: use.components.attach.flatMap fun component =>
    have := sizeOf_lt_of_mem_components component.2
    component.1.parts
termination_by sizeOf use

/-- The parts of a use are the use and the parts of what is directly inside it. -/
theorem parts_eq (use : TypeUse) : use.parts = use :: use.components.flatMap parts := by
  rw [parts, List.flatMap_subtype (g := parts) (fun _ _ => rfl), List.unattach_attach]

/-- What holds of all parts holds of the use and of all parts of what is directly inside it. -/
theorem forall_parts_iff {P : TypeUse → Prop} {use : TypeUse} :
    (∀ part ∈ use.parts, P part) ↔
      P use ∧ ∀ component ∈ use.components, ∀ part ∈ component.parts, P part := by
  rw [parts_eq]
  simp only [List.forall_mem_cons, List.forall_mem_flatMap]

end TypeUse

end GenericTypes
