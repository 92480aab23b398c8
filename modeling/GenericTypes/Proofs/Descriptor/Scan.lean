import GenericTypes.Descriptor.Reader
import GenericTypes.Proofs.Descriptor.Canonical
import GenericTypes.Proofs.Success
import GenericTypes.Proofs.Text.Trim

/-! # What a scan has read

A scan keeps drafts and finished descriptors; `Progress` says the same in descriptors alone: what
has been read at the innermost open brackets, and for each pair of open brackets the raw type in
front of it and what had been read around it. `Steps` says what one character can do, and
`step_eq_ok_iff` that the scan does just this. The places and modes of descriptors play no part: a
scan neither sees nor keeps them. -/

namespace GenericTypes

namespace Descriptor

/-- What a scan keeps of a descriptor that is an argument. -/
def scanned (descriptor : Descriptor) : Argument :=
  if descriptor.arguments.isEmpty then .raw descriptor.raw
  else
    .draft ⟨some descriptor.raw, descriptor.arguments.map fun argument => argument.scanned, false⟩
termination_by sizeOf descriptor
decreasing_by exact sizeOf_lt_of_mem_arguments ‹_›

/-- Arguments that are built one by one are built together. -/
theorem buildAll_scanned {descriptors : List Descriptor}
    (built : ∀ descriptor ∈ descriptors, ∀ here,
      Argument.build here descriptor.scanned = .ok (descriptor.erased here))
    (here : Address) (index : Nat) :
    Argument.buildAll here index (descriptors.map scanned)
      = .ok (erasedAll here index descriptors) := by
  induction descriptors generalizing index with
  | nil => rfl
  | cons first rest ih =>
    rw [List.forall_mem_cons] at built
    rw [List.map_cons, Argument.buildAll, built.1, ih built.2, erasedAll]
    rfl

/-- What a scan keeps of a descriptor is built as the erased descriptor. -/
theorem build_scanned (here : Address) (descriptor : Descriptor) :
    Argument.build here descriptor.scanned = .ok (descriptor.erased here) := by
  induction descriptor using inductionOnArguments generalizing here with
  | step descriptor ih =>
    rw [scanned, erased_eq]
    split
    · rename_i none
      rw [Argument.build, List.isEmpty_iff.1 none]
      rfl
    · rw [Argument.build, Draft.build, buildAll_scanned ih]
      rfl

end Descriptor

namespace Scan

open Descriptor

/-- A pair of open brackets: the raw type in front of it, and what has been read before that at the
brackets around it. -/
structure Frame where
  /-- What has been read before. -/
  before : List Descriptor
  /-- The raw type in front of the brackets. -/
  raw : RawType

/-- What a scan has read. -/
structure Progress where
  /-- The open brackets, the innermost first. -/
  frames : List Frame := []
  /-- What has been read inside the innermost brackets. -/
  items : List Descriptor := []
  /-- What has been read last. -/
  phase : Phase := .fresh

/-- The drafts of some open brackets, given what has been read inside the innermost ones. -/
def drafts (items : List Descriptor) : List Frame → List Draft
  | [] => []
  | frame :: outer => ⟨some frame.raw, items.map scanned, false⟩ :: drafts frame.before outer

/-- What has been read outside all brackets. -/
def outermost (items : List Descriptor) : List Frame → List Descriptor
  | [] => items
  | frame :: outer => outermost frame.before outer

/-- The scan that has read so much. -/
def Progress.scan (context : Context) (progress : Progress) : Scan where
  unclosed := drafts progress.items progress.frames
  finished := (erasedAll context.here 0 (outermost progress.items progress.frames)).reverse
  phase := progress.phase

/-- There is one draft for each pair of open brackets. -/
@[simp] theorem length_drafts (items : List Descriptor) (frames : List Frame) :
    (drafts items frames).length = frames.length := by
  induction frames generalizing items with
  | nil => rfl
  | cons frame outer ih => rw [drafts, List.length_cons, List.length_cons, ih]

/-- The next finished descriptor stands behind those that have been read outside all brackets. -/
theorem next_scan (context : Context) (progress : Progress) :
    (progress.scan context).next context
      = context.here.child (outermost progress.items progress.frames).length := by
  rw [next, Progress.scan, List.length_reverse, length_erasedAll]

/-- One more descriptor at the end of what has been read outside all brackets. -/
theorem finished_append_singleton (context : Context) (items : List Descriptor)
    (descriptor : Descriptor) :
    (erasedAll context.here 0 (items ++ [descriptor])).reverse
      = descriptor.erased (context.here.child items.length)
        :: (erasedAll context.here 0 items).reverse := by
  rw [erasedAll_append_singleton, List.reverse_append, Nat.zero_add]
  rfl

/-! ## One character -/

variable {context : Context} {frames : List Frame} {items items' : List Descriptor} {phase : Phase}

/-- How an argument can end: with a name, which is then an argument itself, or with a closing
bracket. -/
inductive Ends (context : Context) (items : List Descriptor) : Phase → List Descriptor → Prop
  /-- A name ends here. -/
  | name {reversed : List Char} {descriptor : Descriptor}
      (resolved : resolve context reversed = .ok descriptor.raw)
      (plain : descriptor.arguments = []) :
      Ends context items (.name reversed) (items ++ [descriptor])
  /-- A closing bracket has ended the argument. -/
  | closed (nonempty : items ≠ []) : Ends context items .closed items

/-- What one character can do. -/
inductive Steps (context : Context) : Progress → Char → Progress → Prop
  /-- Brackets are opened after a name. -/
  | opens {frames : List Frame} {items : List Descriptor} {reversed : List Char} {raw : RawType}
      (inLimit : frames.length < context.options.maxDepth)
      (resolved : resolve context reversed = .ok raw) :
      Steps context ⟨frames, items, .name reversed⟩ '<' ⟨⟨items, raw⟩ :: frames, [], .fresh⟩
  /-- A comma ends an argument. -/
  | comma {frames : List Frame} {items items' : List Descriptor} {phase : Phase}
      (ends : Ends context items phase items') :
      Steps context ⟨frames, items, phase⟩ ',' ⟨frames, items', .separated⟩
  /-- A closing bracket ends an argument and a list of arguments. -/
  | closes {before : List Descriptor} {frames : List Frame} {items : List Descriptor}
      {phase : Phase} {descriptor : Descriptor}
      (ends : Ends context items phase descriptor.arguments) :
      Steps context ⟨⟨before, descriptor.raw⟩ :: frames, items, phase⟩ '>'
        ⟨frames, before ++ [descriptor], .closed⟩
  /-- A blank follows a comma. -/
  | blank {frames : List Frame} {items : List Descriptor} {c : Char} (isBlank : isBlank c = true) :
      Steps context ⟨frames, items, .separated⟩ c ⟨frames, items, .fresh⟩
  /-- A name starts. -/
  | first {frames : List Frame} {items : List Descriptor} {phase : Phase} {c : Char}
      (isName : IsNameChar c) (start : phase = .fresh ∨ phase = .separated) :
      Steps context ⟨frames, items, phase⟩ c ⟨frames, items, .name [c]⟩
  /-- A name goes on. -/
  | more {frames : List Frame} {items : List Descriptor} {reversed : List Char} {c : Char}
      (isName : IsNameChar c) :
      Steps context ⟨frames, items, .name reversed⟩ c ⟨frames, items, .name (c :: reversed)⟩

/-- An argument has been read when one has ended. -/
theorem Ends.ne_nil (ends : Ends context items phase items') : items' ≠ [] := by
  cases ends with
  | name resolved plain => exact List.append_ne_nil_of_right_ne_nil _ (List.cons_ne_nil _ _)
  | closed nonempty => exact nonempty

/-- Adding a name that resolves adds a descriptor without arguments. -/
theorem addName_scan {reversed : List Char} {descriptor : Descriptor}
    (resolved : resolve context reversed = .ok descriptor.raw)
    (plain : descriptor.arguments = []) :
    (Progress.scan context ⟨frames, items, phase⟩).addName context reversed
      = .ok (Progress.scan context ⟨frames, items ++ [descriptor], phase⟩) := by
  have leaf : ∀ here, descriptor.erased here = .leaf here descriptor.raw := by
    intro here
    rw [erased_eq, plain]
    rfl
  have argument : descriptor.scanned = .raw descriptor.raw := by
    rw [scanned, plain]
    rfl
  rw [addName, resolved]
  cases frames with
  | nil =>
    -- outside all brackets the descriptor is finished at once
    show Except.ok _ = _
    rw [next_scan]
    simp only [Progress.scan, drafts, outermost, finished_append_singleton, leaf]
  | cons frame outer =>
    -- inside brackets the innermost draft takes it as an argument
    simp [Progress.scan, drafts, outermost, Draft.add, argument, bind, Except.bind, pure,
      Except.pure]

/-- An argument that can end ends so. -/
theorem endArgument_scan (position : Nat) (ends : Ends context items phase items') :
    (Progress.scan context ⟨frames, items, phase⟩).endArgument context position
      = .ok (Progress.scan context ⟨frames, items', phase⟩) := by
  cases ends with
  | name resolved plain => exact addName_scan resolved plain
  | closed nonempty => rfl

/-- An argument that ends without an error can end so. -/
theorem ends_of_endArgument {position : Nat} {result : Scan}
    (ended : (Progress.scan context ⟨frames, items, phase⟩).endArgument context position
      = .ok result) (nonempty : phase = .closed → items ≠ []) :
    ∃ items', Ends context items phase items' := by
  cases phase with
  | fresh => cases ended
  | separated => cases ended
  | closed => exact ⟨items, .closed (nonempty rfl)⟩
  | name reversed =>
    -- the argument is a name, which has to be resolved
    cases resolved : resolve context reversed with
    | error cause =>
      change (Progress.scan context _).addName context reversed = _ at ended
      rw [addName, resolved] at ended
      cases ended
    | ok raw => exact ⟨items ++ [.leaf context.here raw], .name resolved rfl⟩

/-- Closing the innermost brackets adds a descriptor of what has been read inside them. -/
theorem closeBracket_scan (position : Nat) {before : List Descriptor} {descriptor : Descriptor}
    (nonempty : descriptor.arguments ≠ []) :
    closeBracket context position
        (Progress.scan context ⟨⟨before, descriptor.raw⟩ :: frames, descriptor.arguments, phase⟩)
      = .ok (Progress.scan context ⟨frames, before ++ [descriptor], .closed⟩) := by
  have argument : descriptor.scanned
      = .draft ⟨some descriptor.raw, descriptor.arguments.map scanned, false⟩ := by
    rw [scanned, List.isEmpty_eq_false_iff.2 nonempty, if_neg Bool.false_ne_true]
  cases frames with
  | nil =>
    -- the outermost brackets are closed, so the draft is built, at the next free place
    have built := build_scanned (context.here.child before.length) descriptor
    rw [argument, Argument.build] at built
    rw [closeBracket, next_scan]
    simp only [Progress.scan, drafts, outermost]
    rw [built, finished_append_singleton]
    rfl
  | cons frame outer =>
    -- the draft stays a draft, as an argument of the one around it
    rw [closeBracket]
    simp [Progress.scan, drafts, outermost, Draft.add, argument]

/-- The scan does what one character can do. -/
theorem step_scan (position : Nat) {progress after : Progress} {c : Char}
    (steps : Steps context progress c after) :
    (progress.scan context).step context position c = .ok (after.scan context) := by
  cases steps with
  | opens inLimit resolved =>
    rename_i frames items reversed raw
    show (Progress.scan context ⟨frames, items, .name reversed⟩).openBracket context position
      reversed = _
    -- the scan counts its drafts, one for each pair of open brackets
    have few : ¬ context.options.maxDepth
        ≤ (Progress.scan context ⟨frames, items, .name reversed⟩).unclosed.length := by
      rw [Progress.scan, length_drafts]
      exact Nat.not_le.2 inLimit
    rw [openBracket, if_neg few, resolved]
    rfl
  | comma ends =>
    rename_i frames items items' phase
    show (endArgument context position _ >>= _) = _
    rw [endArgument_scan position ends]
    rfl
  | closes ends =>
    rename_i before frames items phase descriptor
    show (endArgument context position _ >>= _) = _
    rw [endArgument_scan position ends]
    exact closeBracket_scan position ends.ne_nil
  | blank isBlank =>
    obtain ⟨noOpen, noComma, noClose⟩ := ne_of_isBlank isBlank
    rw [step, if_neg noOpen, if_neg noComma, if_neg noClose, if_pos isBlank]
    rfl
  | first isName start =>
    obtain ⟨noOpen, noComma, noClose, noBlank⟩ := isName
    rw [step, if_neg noOpen, if_neg noComma, if_neg noClose, noBlank, if_neg Bool.false_ne_true]
    rcases start with rfl | rfl <;> rfl
  | more isName =>
    obtain ⟨noOpen, noComma, noClose, noBlank⟩ := isName
    rw [step, if_neg noOpen, if_neg noComma, if_neg noClose, noBlank, if_neg Bool.false_ne_true]
    rfl

/-- Whether progress can be made by reading: something has been read before a closing bracket. -/
def Progress.IsValid (progress : Progress) : Prop :=
  progress.phase = .closed → progress.items ≠ []

/-- The start of a text is valid. -/
theorem isValid_start : Progress.IsValid {} :=
  nofun

/-- Reading a character leads to valid progress. -/
theorem Steps.isValid {progress after : Progress} {c : Char}
    (steps : Steps context progress c after) : after.IsValid := by
  cases steps with
  | closes ends => exact fun _ => List.append_ne_nil_of_right_ne_nil _ (List.cons_ne_nil _ _)
  | _ =>
    -- no other character leads to the phase after a closing bracket
    exact nofun

/-- An opening bracket does what `Steps` says, or is an error. -/
theorem exists_steps_of_openBracket {position : Nat} {reversed : List Char} {result : Scan}
    (opened : (Progress.scan context ⟨frames, items, phase⟩).openBracket context position reversed
      = .ok result) :
    ∃ after, Steps context ⟨frames, items, .name reversed⟩ '<' after := by
  by_cases inLimit : frames.length < context.options.maxDepth
  · cases resolved : resolve context reversed with
    | ok raw => exact ⟨_, .opens inLimit resolved⟩
    | error cause =>
      rw [openBracket, resolved] at opened
      split at opened <;> cases opened
  · have many : context.options.maxDepth
        ≤ (Progress.scan context ⟨frames, items, phase⟩).unclosed.length := by
      rw [Progress.scan, length_drafts]
      exact Nat.not_lt.1 inLimit
    rw [openBracket, if_pos many] at opened
    cases opened

/-- A closing bracket does what `Steps` says, or is an error. -/
theorem exists_steps_of_close {position : Nat} {result : Scan}
    (valid : Progress.IsValid ⟨frames, items, phase⟩)
    (closed : (Progress.scan context ⟨frames, items, phase⟩).step context position '>'
      = .ok result) :
    ∃ after, Steps context ⟨frames, items, phase⟩ '>' after := by
  cases frames with
  | nil => cases closed
  | cons frame outer =>
    change (endArgument context position _ >>= _) = _ at closed
    obtain ⟨ended, endedEq, -⟩ := ok_of_bind_eq_ok closed
    obtain ⟨items', ends⟩ := ends_of_endArgument endedEq valid
    -- the place and the mode are of no account: a scan does not keep them
    let descriptor : Descriptor := ⟨context.here, frame.raw, items', false⟩
    have ends : Ends context items phase descriptor.arguments := ends
    exact ⟨_, .closes ends⟩

/-- What the scan does with a character without an error is what the character can do. -/
theorem exists_steps {position : Nat} {progress : Progress} {c : Char} {result : Scan}
    (valid : progress.IsValid)
    (stepped : (progress.scan context).step context position c = .ok result) :
    ∃ after, Steps context progress c after := by
  obtain ⟨frames, items, phase⟩ := progress
  by_cases isOpen : c = '<'
  · subst isOpen
    cases phase with
    | name reversed => exact exists_steps_of_openBracket stepped
    | _ => cases stepped
  by_cases isComma : c = ','
  · subst isComma
    change (endArgument context position _ >>= _) = _ at stepped
    obtain ⟨ended, endedEq, -⟩ := ok_of_bind_eq_ok stepped
    obtain ⟨items', ends⟩ := ends_of_endArgument endedEq valid
    exact ⟨_, .comma ends⟩
  by_cases isClose : c = '>'
  · subst isClose
    exact exists_steps_of_close valid stepped
  rw [step, if_neg isOpen, if_neg isComma, if_neg isClose] at stepped
  by_cases blank : isBlank c = true
  · rw [if_pos blank] at stepped
    cases phase with
    | separated => exact ⟨_, .blank blank⟩
    | _ => cases stepped
  · have isName : IsNameChar c := ⟨isOpen, isComma, isClose, eq_false_of_ne_true blank⟩
    rw [if_neg blank] at stepped
    cases phase with
    | fresh => exact ⟨_, .first isName (.inl rfl)⟩
    | separated => exact ⟨_, .first isName (.inr rfl)⟩
    | name reversed => exact ⟨_, .more isName⟩
    | closed => cases stepped

/-- The scan goes through a character without an error exactly when the character can be read, and
does then what the character can do. -/
theorem step_eq_ok_iff {position : Nat} {progress : Progress} {c : Char} {result : Scan}
    (valid : progress.IsValid) :
    (progress.scan context).step context position c = .ok result ↔
      ∃ after, Steps context progress c after ∧ result = after.scan context := by
  constructor
  · intro stepped
    obtain ⟨after, steps⟩ := exists_steps valid stepped
    rw [step_scan position steps] at stepped
    exact ⟨after, steps, (Except.ok.inj stepped).symm⟩
  · rintro ⟨after, steps, rfl⟩
    exact step_scan position steps

/-! ## Whole texts -/

/-- What a text can do: what its characters do one after the other. -/
inductive Runs (context : Context) : Progress → List Char → Progress → Prop
  /-- The empty text does nothing. -/
  | nil (progress : Progress) : Runs context progress [] progress
  /-- The first character takes one step, and the rest goes on from there. -/
  | cons {progress next after : Progress} {c : Char} {rest : List Char}
      (step : Steps context progress c next) (runs : Runs context next rest after) :
      Runs context progress (c :: rest) after

namespace Runs

variable {progress next after : Progress} {text rest : List Char}

/-- One character is a text. -/
theorem singleton {c : Char} (step : Steps context progress c after) :
    Runs context progress [c] after :=
  .cons step (.nil after)

/-- One text after another. -/
theorem append (first : Runs context progress text next) (second : Runs context next rest after) :
    Runs context progress (text ++ rest) after := by
  induction first with
  | nil progress => exact second
  | cons step runs ih => exact .cons step (ih second)

/-- A text in two parts does what the first part does, and then what the second part does. -/
theorem exists_of_append (runs : Runs context progress (text ++ rest) after) :
    ∃ next, Runs context progress text next ∧ Runs context next rest after := by
  induction text generalizing progress with
  | nil => exact ⟨progress, .nil progress, runs⟩
  | cons c text ih =>
    cases runs with
    | cons step runs =>
      obtain ⟨next, first, second⟩ := ih runs
      exact ⟨next, .cons step first, second⟩

/-- What every character keeps, a text keeps. -/
theorem preserves (Invariant : Progress → Prop)
    (kept : ∀ {before c after}, Steps context before c after → Invariant before → Invariant after)
    (runs : Runs context progress text after) (holds : Invariant progress) : Invariant after := by
  induction runs with
  | nil progress => exact holds
  | cons step runs ih => exact ih (kept step holds)

/-- Reading a text leads from valid progress to valid progress. -/
theorem isValid (runs : Runs context progress text after) (valid : progress.IsValid) :
    after.IsValid :=
  runs.preserves Progress.IsValid (fun step _ => step.isValid) valid

end Runs

/-- The scan goes through a text without an error exactly when the text can be read, and does then
what the text can do. -/
theorem run_eq_ok_iff {position : Nat} {progress : Progress} {text : List Char} {result : Scan}
    (valid : progress.IsValid) :
    run context position (progress.scan context) text = .ok result ↔
      ∃ after, Runs context progress text after ∧ result = after.scan context := by
  induction text generalizing position progress with
  | nil =>
    constructor
    · intro ran
      exact ⟨progress, .nil progress, (Except.ok.inj ran).symm⟩
    · rintro ⟨after, runs, rfl⟩
      cases runs
      rfl
  | cons c rest ih =>
    rw [run]
    constructor
    · intro ran
      obtain ⟨stepped, steppedEq, ran⟩ := ok_of_bind_eq_ok ran
      obtain ⟨next, step, rfl⟩ := (step_eq_ok_iff valid).1 steppedEq
      obtain ⟨after, runs, eq⟩ := (ih step.isValid).1 ran
      exact ⟨after, .cons step runs, eq⟩
    · rintro ⟨after, runs, eq⟩
      cases runs with
      | cons step runs =>
        rw [step_scan position step]
        exact (ih step.isValid).2 ⟨after, runs, eq⟩

/-- A text in two parts is scanned as the first part and then the second part. -/
theorem run_append (position : Nat) (scan : Scan) (text rest : List Char) :
    run context position scan (text ++ rest)
      = run context position scan text >>= fun scan =>
        run context (position + byteLength text) scan rest := by
  induction text generalizing position scan with
  | nil => rfl
  | cons c text ih =>
    rw [List.cons_append, run, run, byteLength_cons, ← Nat.add_assoc]
    cases scan.step context position c with
    | error cause => rfl
    | ok next => exact ih (position + c.utf8Size) next

/-- How a text can end outside all brackets: with the end of an argument, or before anything has
been read. -/
def Progress.Finishes (context : Context) (progress : Progress) (items : List Descriptor) : Prop :=
  progress.frames = [] ∧
    (progress.phase = .fresh ∧ items = progress.items
      ∨ Ends context progress.items progress.phase items)

/-- Outside all brackets a text ends with what is pending: a name is read, a comma is an error. -/
theorem finish_outside (position : Nat) :
    (Progress.scan context ⟨[], items, phase⟩).finish context position =
      match phase with
      | .name reversed => do
        let scan ← (Progress.scan context ⟨[], items, phase⟩).addName context reversed
        return scan.finished.reverse
      | .separated => .error (.malformed (position - 1) .trailingComma)
      | _ => .ok (erasedAll context.here 0 items) := by
  cases phase with
  | name reversed => rfl
  | separated => rfl
  | fresh => exact congrArg Except.ok (List.reverse_reverse _)
  | closed => exact congrArg Except.ok (List.reverse_reverse _)

/-- Inside brackets no text ends, unless brackets may be left open. -/
theorem finish_inside (strict : context.options.lenient = false) (position : Nat) {frame : Frame} :
    ∃ cause, (Progress.scan context ⟨frame :: frames, items, phase⟩).finish context position
      = .error cause := by
  by_cases separated : (Progress.scan context ⟨frame :: frames, items, phase⟩).phase = .separated
  · refine ⟨.malformed (position - 1) .trailingComma, ?_⟩
    rw [finish, if_pos separated]
    rfl
  · have inside : (!(Progress.scan context ⟨frame :: frames, items, phase⟩).unclosed.isEmpty
        && !context.options.lenient) = true := by
      rw [strict]
      rfl
    refine ⟨.malformed position (.unterminated (drafts items (frame :: frames)).length), ?_⟩
    rw [finish, if_neg separated, if_pos inside]
    rfl

/-- The scan gives what has been read when a text can end, erased. -/
theorem finish_scan (position : Nat) {progress : Progress}
    (finishes : progress.Finishes context items) :
    (progress.scan context).finish context position = .ok (erasedAll context.here 0 items) := by
  obtain ⟨frames, read, phase⟩ := progress
  obtain ⟨rfl, ⟨rfl, rfl⟩ | ends⟩ := finishes
  · rw [finish_outside]
  · rw [finish_outside]
    cases ends with
    | closed nonempty => rfl
    | name resolved plain =>
      show (addName context _ _ >>= _) = _
      rw [addName_scan resolved plain]
      exact congrArg Except.ok (List.reverse_reverse _)

/-- A text ends without an error exactly when it can end, and gives then what has been read,
erased. -/
theorem finish_eq_ok_iff (strict : context.options.lenient = false) {position : Nat}
    {progress : Progress} (valid : progress.IsValid) {result : List Descriptor} :
    (progress.scan context).finish context position = .ok result ↔
      ∃ items, progress.Finishes context items ∧ result = erasedAll context.here 0 items := by
  constructor
  · intro finished
    have finishes : ∃ items, progress.Finishes context items := by
      obtain ⟨frames, read, phase⟩ := progress
      cases frames with
      | cons frame outer =>
        have inside : ∃ cause, (Progress.scan context ⟨frame :: outer, read, phase⟩).finish context
            position = .error cause := finish_inside strict position
        obtain ⟨cause, failed⟩ := inside
        rw [failed] at finished
        cases finished
      | nil =>
        rw [finish_outside] at finished
        cases phase with
        | fresh => exact ⟨read, rfl, .inl ⟨rfl, rfl⟩⟩
        | separated => cases finished
        | closed => exact ⟨read, rfl, .inr (.closed (valid rfl))⟩
        | name reversed =>
          obtain ⟨added, addedEq, -⟩ := ok_of_bind_eq_ok finished
          -- a pending name that can be added would have ended an argument as well
          have ended : (Progress.scan context ⟨[], read, .name reversed⟩).endArgument context
              position = .ok added := addedEq
          obtain ⟨items, ends⟩ := ends_of_endArgument ended nofun
          exact ⟨items, rfl, .inr ends⟩
    obtain ⟨items, finishes⟩ := finishes
    rw [finish_scan position finishes] at finished
    exact ⟨items, finishes, (Except.ok.inj finished).symm⟩
  · rintro ⟨items, finishes, rfl⟩
    exact finish_scan position finishes

/-- A text that can be read up to an end is read without an error, and gives what has been read,
erased. -/
theorem readBody_scan (start : Nat) {text : List Char} {after : Progress}
    (runs : Runs context {} text after) (finishes : after.Finishes context items) :
    readBody context start text = .ok (erasedAll context.here 0 items) := by
  show (run context start (Progress.scan context {}) text >>= _) = _
  rw [(run_eq_ok_iff isValid_start).2 ⟨after, runs, rfl⟩]
  exact finish_scan _ finishes

/-- A text is read without an error only when it can be read up to an end. -/
theorem readBody_eq_ok_iff (strict : context.options.lenient = false) {start : Nat}
    {text : List Char} {result : List Descriptor} :
    readBody context start text = .ok result ↔
      ∃ after items, Runs context {} text after ∧ after.Finishes context items
        ∧ result = erasedAll context.here 0 items := by
  constructor
  · intro read
    have read : (run context start (Progress.scan context {}) text >>= fun scan =>
        scan.finish context (start + byteLength text)) = .ok result := read
    obtain ⟨scan, ran, finished⟩ := ok_of_bind_eq_ok read
    obtain ⟨after, runs, rfl⟩ := (run_eq_ok_iff isValid_start).1 ran
    have valid := runs.isValid isValid_start
    obtain ⟨items, finishes, eq⟩ := (finish_eq_ok_iff strict valid).1 finished
    exact ⟨after, items, runs, finishes, eq⟩
  · rintro ⟨after, items, runs, finishes, rfl⟩
    exact readBody_scan start runs finishes

end Scan

end GenericTypes
