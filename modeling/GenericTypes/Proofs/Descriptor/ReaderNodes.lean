import GenericTypes.Proofs.Descriptor.Completeness
import GenericTypes.Proofs.Descriptor.Growth

/-! # What reading makes

A scan attaches no descriptor that was there before: its drafts hold raw types and further drafts
only. So everything that is read consists of new nodes, whatever the text is and whether brackets
may be left open. What one character keeps, the whole text keeps. -/

namespace GenericTypes

namespace Scan

open Descriptor

/-- The new nodes of a scan. -/
abbrev Fresh (raws : RawType → Prop) (raw : RawType) (_ : Bool) : Prop :=
  raws raw

/-- Whether a scan holds new nodes only, and drafts of such. -/
structure IsSound (raws : RawType → Prop) (context : Context) (scan : Scan) : Prop where
  /-- No finished descriptor stands in a draft. -/
  unclosed : ∀ draft ∈ scan.unclosed, draft.DrawsFrom raws fun _ => False
  /-- The finished descriptors have been made one after the other. -/
  finished : GrownBelow (Fresh raws) (fun _ => False) context.here 0 scan.finished.reverse

variable {raws : RawType → Prop}

/-- Drafts that are added to each other hold what they held. -/
theorem drawsFrom_nest {innermost : Draft} {outer : List Draft}
    (draws : ∀ draft ∈ innermost :: outer, draft.DrawsFrom raws fun _ => False) :
    (nest innermost outer).DrawsFrom raws fun _ => False := by
  induction outer generalizing innermost with
  | nil => exact draws innermost List.mem_cons_self
  | cons parent outer ih =>
    rw [List.forall_mem_cons, List.forall_mem_cons] at draws
    rw [nest]
    exact ih (List.forall_mem_cons.2 ⟨draws.2.1.add draws.1, draws.2.2⟩)

namespace IsSound

variable {context : Context} {scan result : Scan}
  {descriptor : Descriptor} {reversed : List Char} {position : Nat}

/-- One more descriptor is finished. -/
theorem finished_cons (sound : scan.IsSound raws context)
    (grown : descriptor.GrownAt (Fresh raws) (fun _ => False) (scan.next context)) :
    GrownBelow (Fresh raws) (fun _ => False) context.here 0
      (descriptor :: scan.finished).reverse := by
  rw [List.reverse_cons]
  refine sound.finished.concat ?_
  rw [List.length_reverse, Nat.zero_add]
  exact grown

/-- A draft that is built is one more descriptor. -/
theorem finished_cons_of_build (sound : scan.IsSound raws context) {draft : Draft}
    (draws : draft.DrawsFrom raws fun _ => False)
    (built : draft.build (scan.next context) = .ok descriptor) :
    GrownBelow (Fresh raws) (fun _ => False) context.here 0
      (descriptor :: scan.finished).reverse := by
  obtain ⟨raw, arguments, rfl, holds, below⟩ := Draft.exists_of_build draws built
  exact sound.finished_cons (below.grownAt holds)

/-- Closing brackets. -/
theorem closeBracket (sound : scan.IsSound raws context)
    (closed : scan.closeBracket context position = .ok result) : result.IsSound raws context := by
  have draws := sound.unclosed
  rw [Scan.closeBracket] at closed
  split at closed
  · cases closed
  · rename_i draft single
    obtain ⟨descriptor, built, closed⟩ := ok_of_bind_eq_ok closed
    cases closed
    rw [single, List.forall_mem_singleton] at draws
    refine ⟨?_, sound.finished_cons_of_build draws built⟩
    intro draft mem
    cases mem
  · rename_i draft parent outer unclosed
    cases closed
    rw [unclosed, List.forall_mem_cons, List.forall_mem_cons] at draws
    exact ⟨List.forall_mem_cons.2 ⟨draws.2.1.add draws.1, draws.2.2⟩, sound.finished⟩

/-- Closing all brackets that are still open. -/
theorem closeAll (sound : scan.IsSound raws context)
    (closed : scan.closeAll context = .ok result) : result.IsSound raws context := by
  have draws := sound.unclosed
  rw [Scan.closeAll] at closed
  split at closed
  · cases closed
    exact sound
  · rename_i innermost outer unclosed
    obtain ⟨descriptor, built, closed⟩ := ok_of_bind_eq_ok closed
    cases closed
    rw [unclosed] at draws
    exact ⟨nofun, sound.finished_cons_of_build (drawsFrom_nest draws) built⟩

section Answers

variable (answer : ∀ {name raw}, context.scope.find name = .ok raw → raws raw)
include answer

/-- Adding a name. -/
theorem addName (sound : scan.IsSound raws context)
    (added : scan.addName context reversed = .ok result) : result.IsSound raws context := by
  rw [Scan.addName] at added
  obtain ⟨raw, resolved, added⟩ := ok_of_bind_eq_ok added
  have holds : raws raw := answer (resolve_eq_ok_iff.1 resolved)
  have draws := sound.unclosed
  split at added
  · rename_i none
    cases added
    exact ⟨draws, sound.finished_cons (grownBelow_nil.grownAt holds)⟩
  · rename_i innermost outer unclosed
    cases added
    rw [unclosed, List.forall_mem_cons] at draws
    exact ⟨List.forall_mem_cons.2 ⟨draws.1.add holds, draws.2⟩, sound.finished⟩

/-- Opening brackets. -/
theorem openBracket (sound : scan.IsSound raws context)
    (opened : scan.openBracket context position reversed = .ok result) :
    result.IsSound raws context := by
  rw [Scan.openBracket] at opened
  split at opened
  · cases opened
  · obtain ⟨raw, resolved, opened⟩ := ok_of_bind_eq_ok opened
    cases opened
    have holds : raws raw := answer (resolve_eq_ok_iff.1 resolved)
    exact ⟨List.forall_mem_cons.2 ⟨Draft.drawsFrom_ofRaw holds, sound.unclosed⟩, sound.finished⟩

/-- Ending an argument. -/
theorem endArgument (sound : scan.IsSound raws context)
    (ended : scan.endArgument context position = .ok result) : result.IsSound raws context := by
  rw [Scan.endArgument] at ended
  split at ended
  · exact sound.addName answer ended
  · cases ended
    exact sound
  · cases ended

/-- Reading a character. -/
theorem step (sound : scan.IsSound raws context) {c : Char}
    (stepped : scan.step context position c = .ok result) : result.IsSound raws context := by
  have later : ∀ phase, IsSound raws context { scan with phase } :=
    fun phase => ⟨sound.unclosed, sound.finished⟩
  rw [Scan.step] at stepped
  split at stepped
  · split at stepped
    · exact sound.openBracket answer stepped
    · cases stepped
  · split at stepped
    · obtain ⟨ended, endedEq, stepped⟩ := ok_of_bind_eq_ok stepped
      cases stepped
      have kept := sound.endArgument answer endedEq
      exact ⟨kept.unclosed, kept.finished⟩
    · split at stepped
      · split at stepped
        · cases stepped
        · obtain ⟨ended, endedEq, stepped⟩ := ok_of_bind_eq_ok stepped
          exact (sound.endArgument answer endedEq).closeBracket stepped
      · -- the other characters change the phase only
        split at stepped <;> split at stepped <;> cases stepped <;> exact later _

/-- Reading a text. -/
theorem run (sound : scan.IsSound raws context) {text : List Char}
    (ran : scan.run context position text = .ok result) : result.IsSound raws context := by
  induction text generalizing scan position with
  | nil =>
    cases ran
    exact sound
  | cons c rest ih =>
    rw [Scan.run] at ran
    obtain ⟨stepped, steppedEq, ran⟩ := ok_of_bind_eq_ok ran
    exact ih (sound.step answer steppedEq) ran

/-- Ending a text. -/
theorem finish (sound : scan.IsSound raws context) {descriptors : List Descriptor}
    (finished : scan.finish context position = .ok descriptors) :
    GrownBelow (Fresh raws) (fun _ => False) context.here 0 descriptors := by
  rw [Scan.finish] at finished
  split at finished
  · cases finished
  · split at finished
    · cases finished
    · obtain ⟨closed, closedEq, finished⟩ := ok_of_bind_eq_ok finished
      have kept := sound.closeAll closedEq
      split at finished
      · -- a name that is still pending is the last descriptor
        obtain ⟨added, addedEq, finished⟩ := ok_of_bind_eq_ok finished
        cases finished
        exact (kept.addName answer addedEq).finished
      · cases finished
        exact kept.finished

end Answers

end IsSound

end Scan

/-- Descriptors that are read have been made one after the other. -/
theorem Descriptor.grownBelow_of_readAll {scope : Scope} {raws : RawType → Prop}
    (answer : ∀ {name raw}, scope.find name = .ok raw → raws raw) {options : ReadOptions}
    {here : Address} {text : String} {descriptors : List Descriptor}
    (read : readAll scope options here text = .ok descriptors) :
    GrownBelow (Scan.Fresh raws) (fun _ => False) here 0 descriptors := by
  let context : Scan.Context := ⟨scope, options, here⟩
  rw [readAll, Scan.readBody] at read
  obtain ⟨scan, ran, finished⟩ := ok_of_bind_eq_ok read
  have start : Scan.IsSound raws context {} := ⟨nofun, grownBelow_nil⟩
  exact (start.run answer ran).finish answer finished

end GenericTypes
