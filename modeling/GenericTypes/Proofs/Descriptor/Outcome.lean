import Mathlib.Data.List.Induction
import GenericTypes.Proofs.Descriptor.Spelling

/-! # What reading a text can come to

A text that is read without leniency is read up to an end, or reading stops: at a character that
cannot stand where it stands, at a name under which nothing is found, behind a trailing comma, or at
the end while brackets are open. `Rejects` says which characters cannot stand where, and `Outcome`
what the whole text comes to. What has been read up to that point is known as `Runs`. -/

namespace GenericTypes

namespace Scan

open Descriptor

variable {context : Context} {frames : List Frame} {items : List Descriptor} {phase : Phase}
  {progress after : Progress} {text : List Char} {c : Char}

/-! ## One character -/

/-- Whether an argument can start: nothing of it has been read. -/
def Phase.IsStart (phase : Phase) : Prop :=
  phase = .fresh ∨ phase = .separated

/-- Where an argument can start, no name is being read. -/
theorem Phase.IsStart.ne_name (start : phase.IsStart) (reversed : List Char) :
    phase ≠ .name reversed := by
  rcases start with rfl | rfl <;> exact Phase.noConfusion

/-- Which characters cannot stand where, and what is wrong with them. -/
inductive Rejects (context : Context) : Progress → Char → TextFault → Prop
  /-- Brackets open without a name in front of them. -/
  | missingName {frames : List Frame} {items : List Descriptor} {phase : Phase}
      (noName : ∀ reversed, phase ≠ .name reversed) :
      Rejects context ⟨frames, items, phase⟩ '<' .missingName
  /-- Brackets open for which there is no room. -/
  | tooDeep {frames : List Frame} {items : List Descriptor} {reversed : List Char}
      (full : context.options.maxDepth ≤ frames.length) :
      Rejects context ⟨frames, items, .name reversed⟩ '<' (.tooDeep context.options.maxDepth)
  /-- A comma ends no argument. -/
  | comma {frames : List Frame} {items : List Descriptor} {phase : Phase}
      (start : phase.IsStart) : Rejects context ⟨frames, items, phase⟩ ',' .emptyArgument
  /-- Brackets close that have not been opened. -/
  | unbalanced {items : List Descriptor} {phase : Phase} :
      Rejects context ⟨[], items, phase⟩ '>' .unbalancedClose
  /-- Brackets close and end no argument. -/
  | closes {frame : Frame} {frames : List Frame} {items : List Descriptor} {phase : Phase}
      (start : phase.IsStart) :
      Rejects context ⟨frame :: frames, items, phase⟩ '>' .emptyArgument
  /-- A blank stands elsewhere than behind a comma. -/
  | blank {frames : List Frame} {items : List Descriptor} {phase : Phase} {c : Char}
      (isBlank : isBlank c = true) (other : phase ≠ .separated) :
      Rejects context ⟨frames, items, phase⟩ c .unexpectedBlank
  /-- A name stands directly behind a closing bracket. -/
  | name {frames : List Frame} {items : List Descriptor} {c : Char} (isName : IsNameChar c) :
      Rejects context ⟨frames, items, .closed⟩ c .nameAfterClose

/-- What one character comes to: a step, a fault, or an error for the name that it ends. -/
inductive StepOutcome (context : Context) (position : Nat) (progress : Progress) (c : Char) :
    Except DescriptorError Scan → Prop
  /-- The character can be read. -/
  | steps {after : Progress} (steps : Steps context progress c after) :
      StepOutcome context position progress c (.ok (after.scan context))
  /-- The character cannot stand here. -/
  | rejected {fault : TextFault} (rejects : Rejects context progress c fault) :
      StepOutcome context position progress c (.error (.malformed position fault))
  /-- The character ends a name under which nothing is found. -/
  | unresolved {reversed : List Char} {cause : DescriptorError}
      (pending : progress.phase = .name reversed) (ends : ¬ IsNameChar c)
      (failed : resolve context reversed = .error cause) :
      StepOutcome context position progress c (.error cause)

/-- Where an argument ends, it does, or nothing of it has been read, or nothing is found under the
name that it is. -/
theorem endArgument_cases (context : Context) (position : Nat)
    (valid : Progress.IsValid ⟨frames, items, phase⟩) :
    (∃ items', Ends context items phase items')
      ∨ (phase.IsStart ∧ (Progress.scan context ⟨frames, items, phase⟩).endArgument context position
        = .error (.malformed position .emptyArgument))
      ∨ ∃ reversed cause, phase = .name reversed ∧ resolve context reversed = .error cause
        ∧ (Progress.scan context ⟨frames, items, phase⟩).endArgument context position
          = .error cause := by
  cases phase with
  | fresh => exact .inr (.inl ⟨.inl rfl, rfl⟩)
  | separated => exact .inr (.inl ⟨.inr rfl, rfl⟩)
  | closed => exact .inl ⟨items, .closed (valid rfl)⟩
  | name reversed =>
    cases resolved : resolve context reversed with
    | ok raw => exact .inl ⟨items ++ [.leaf context.here raw], .name resolved rfl⟩
    | error cause =>
      refine .inr (.inr ⟨reversed, cause, rfl, resolved, ?_⟩)
      show addName context _ reversed = _
      rw [addName, resolved]
      rfl

/-- Opening brackets. -/
theorem stepOutcome_open (position : Nat) (frames : List Frame) (items : List Descriptor)
    (phase : Phase) :
    StepOutcome context position ⟨frames, items, phase⟩ '<'
      ((Progress.scan context ⟨frames, items, phase⟩).step context position '<') := by
  cases phase with
  | name reversed =>
    show StepOutcome _ _ _ _ (openBracket context position _ reversed)
    rw [openBracket, Progress.scan, length_drafts]
    by_cases full : context.options.maxDepth ≤ frames.length
    · -- the limit is checked before the name is looked up
      rw [if_pos full]
      exact .rejected (.tooDeep full)
    · rw [if_neg full]
      cases resolved : resolve context reversed with
      | ok raw => exact .steps (.opens (Nat.not_le.1 full) resolved)
      | error cause => exact .unresolved rfl (fun isName => isName.1 rfl) resolved
  | _ => exact .rejected (.missingName fun _ => Phase.noConfusion)

/-- A comma. -/
theorem stepOutcome_comma (position : Nat) (valid : Progress.IsValid ⟨frames, items, phase⟩) :
    StepOutcome context position ⟨frames, items, phase⟩ ','
      ((Progress.scan context ⟨frames, items, phase⟩).step context position ',') := by
  rcases endArgument_cases context position valid with
    ⟨items', ends⟩ | ⟨start, failed⟩ | ⟨reversed, cause, rfl, unresolved, failed⟩
  · rw [step_scan position (.comma ends)]
    exact .steps (.comma ends)
  · show StepOutcome _ _ _ _ (endArgument context position _ >>= _)
    rw [failed]
    exact .rejected (.comma start)
  · show StepOutcome _ _ _ _ (endArgument context position _ >>= _)
    rw [failed]
    exact .unresolved rfl (fun isName => isName.2.1 rfl) unresolved

/-- Closing brackets. -/
theorem stepOutcome_close (position : Nat) (valid : Progress.IsValid ⟨frames, items, phase⟩) :
    StepOutcome context position ⟨frames, items, phase⟩ '>'
      ((Progress.scan context ⟨frames, items, phase⟩).step context position '>') := by
  cases frames with
  | nil => exact .rejected .unbalanced
  | cons frame outer =>
    rcases endArgument_cases context position valid with
      ⟨items', ends⟩ | ⟨start, failed⟩ | ⟨reversed, cause, rfl, unresolved, failed⟩
    · -- the place and the mode are of no account: a scan does not keep them
      let descriptor : Descriptor := ⟨context.here, frame.raw, items', false⟩
      have ends : Ends context items phase descriptor.arguments := ends
      have steps : Steps context ⟨frame :: outer, items, phase⟩ '>'
          ⟨outer, frame.before ++ [descriptor], .closed⟩ :=
        .closes ends
      rw [step_scan position steps]
      exact .steps steps
    · show StepOutcome _ _ _ _ (endArgument context position _ >>= _)
      rw [failed]
      exact .rejected (.closes start)
    · show StepOutcome _ _ _ _ (endArgument context position _ >>= _)
      rw [failed]
      exact .unresolved rfl (fun isName => isName.2.2.1 rfl) unresolved

/-- What one character comes to. -/
theorem stepOutcome (context : Context) (position : Nat) (valid : progress.IsValid) (c : Char) :
    StepOutcome context position progress c
      ((progress.scan context).step context position c) := by
  obtain ⟨frames, items, phase⟩ := progress
  by_cases isOpen : c = '<'
  · subst isOpen
    exact stepOutcome_open position frames items phase
  by_cases isComma : c = ','
  · subst isComma
    exact stepOutcome_comma position valid
  by_cases isClose : c = '>'
  · subst isClose
    exact stepOutcome_close position valid
  -- blanks and characters of names resolve nothing: what has been read last decides
  rw [step, if_neg isOpen, if_neg isComma, if_neg isClose]
  by_cases blank : isBlank c = true
  · rw [if_pos blank]
    cases phase with
    | separated => exact .steps (.blank blank)
    | _ => exact .rejected (.blank blank Phase.noConfusion)
  · have isName : IsNameChar c := ⟨isOpen, isComma, isClose, eq_false_of_ne_true blank⟩
    rw [if_neg blank]
    cases phase with
    | fresh => exact .steps (.first isName (.inl rfl))
    | separated => exact .steps (.first isName (.inr rfl))
    | name reversed => exact .steps (.more isName)
    | closed => exact .rejected (.name isName)

/-! ## Names that are being read -/

/-- How a text is taken apart into the name at its end, which may be empty, and what is in front of
this name. -/
structure IsPending (text before name : List Char) : Prop where
  /-- These are the parts of the text. -/
  eq_append : text = before ++ name
  /-- The name is made of characters of names. -/
  isNameChar : ∀ c ∈ name, IsNameChar c
  /-- It starts where characters of names start. -/
  last_before : ∀ c ∈ before.getLast?, ¬ IsNameChar c

/-- A text has one such decomposition. -/
theorem IsPending.eq {before name other rest : List Char} (pending : IsPending text before name)
    (same : IsPending text other rest) : before = other ∧ name = rest := by
  have split := pending.eq_append.symm.trans same.eq_append
  -- a difference would be made of characters of names that end one of the fronts
  rcases List.append_eq_append_iff.1 split with ⟨more, rfl, rfl⟩ | ⟨more, rfl, rfl⟩
  · rcases List.eq_nil_or_concat more with rfl | ⟨part, c, rfl⟩
    · exact ⟨(List.append_nil before).symm, rfl⟩
    · have letter := pending.isNameChar c (by simp)
      exact absurd letter (same.last_before c (by simp))
  · rcases List.eq_nil_or_concat more with rfl | ⟨part, c, rfl⟩
    · exact ⟨List.append_nil other, rfl⟩
    · have letter := same.isNameChar c (by simp)
      exact absurd letter (pending.last_before c (by simp))

/-- Where no name is being read, the last character has not been one of a name. -/
theorem Runs.not_isNameChar_last (runs : Runs context {} text after)
    (noName : ∀ reversed, after.phase ≠ .name reversed) :
    ∀ c ∈ text.getLast?, ¬ IsNameChar c := by
  rintro c last ⟨noOpen, noComma, noClose, noBlank⟩
  obtain ⟨part, rfl⟩ := List.getLast?_eq_some_iff.1 last
  obtain ⟨before, behind, -, step, rest⟩ := runs.exists_steps
  cases rest
  have letter := step.phase_after
  cases phase : after.phase with
  | name reversed => exact noName reversed phase
  | separated =>
    rw [phase] at letter
    exact noComma letter
  | closed =>
    rw [phase] at letter
    exact noClose letter
  | fresh =>
    rw [phase] at letter
    rcases letter with rfl | blank
    · exact noOpen rfl
    · rw [noBlank] at blank
      cases blank

/-- While a name is being read, the text ends in what has been read of it, and in front of it an
argument can start. -/
theorem Runs.exists_of_name {reversed : List Char}
    (runs : Runs context {} text ⟨frames, items, .name reversed⟩) :
    ∃ before start, text = before ++ reversed.reverse ∧ IsName reversed.reverse
      ∧ Runs context {} before ⟨frames, items, start⟩ ∧ start.IsStart := by
  induction text using List.reverseRecOn generalizing reversed with
  | nil => cases runs
  | append_singleton text c ih =>
    obtain ⟨before, behind, first, step, rest⟩ := runs.exists_steps
    cases rest
    cases step with
    | first isName start =>
      refine ⟨text, _, rfl, ⟨List.cons_ne_nil _ _, ?_⟩, first, start⟩
      exact List.forall_mem_singleton.2 isName
    | @more frames items earlier c isName =>
      obtain ⟨before, start, rfl, earlierName, runs, isStart⟩ := ih first
      refine ⟨before, start, ?_, ⟨?_, ?_⟩, runs, isStart⟩
      · rw [List.reverse_cons, List.append_assoc]
      · rw [List.reverse_cons]
        exact List.append_ne_nil_of_right_ne_nil _ (List.cons_ne_nil _ _)
      · rw [List.reverse_cons, List.forall_mem_append]
        exact ⟨earlierName.2, List.forall_mem_singleton.2 isName⟩

/-- The characters of the name that is being read. -/
def Phase.pending : Phase → List Char
  | .name reversed => reversed.reverse
  | _ => []

/-- What is being read is the name at the end of the text, and in front of it no name is being
read. -/
theorem Runs.exists_isPending (runs : Runs context {} text ⟨frames, items, phase⟩) :
    ∃ before front, IsPending text before phase.pending
      ∧ Runs context {} before ⟨frames, items, front⟩ ∧ ∀ reversed, front ≠ .name reversed := by
  by_cases named : ∃ reversed, phase = .name reversed
  · obtain ⟨reversed, rfl⟩ := named
    obtain ⟨before, start, rfl, isName, first, isStart⟩ := runs.exists_of_name
    have noName := isStart.ne_name
    exact ⟨before, start, ⟨rfl, isName.2, first.not_isNameChar_last noName⟩, first, noName⟩
  · have noName : ∀ reversed, phase ≠ .name reversed := fun _ name => named ⟨_, name⟩
    have none : phase.pending = [] := by
      cases phase with
      | name reversed => exact absurd rfl (noName reversed)
      | _ => rfl
    rw [none]
    exact ⟨text, phase, ⟨(List.append_nil text).symm, nofun, runs.not_isNameChar_last noName⟩, runs,
      noName⟩

/-- In front of a comma that has been read stands an argument that can end. -/
theorem Runs.exists_of_separated (runs : Runs context {} text ⟨frames, items, .separated⟩) :
    ∃ part read ended, text = part ++ [','] ∧ Runs context {} part ⟨frames, read, ended⟩
      ∧ Ends context read ended items := by
  rcases List.eq_nil_or_concat text with rfl | ⟨part, c, rfl⟩
  · cases runs
  · rw [List.concat_eq_append] at runs ⊢
    obtain ⟨before, behind, first, step, rest⟩ := runs.exists_steps
    cases rest
    cases step with
    | comma ends => exact ⟨part, _, _, rfl, first, ends⟩

/-! ## Whole texts -/

/-- What the characters of a text come to, from some progress on. -/
inductive RunOutcome (context : Context) (position : Nat) (progress : Progress)
    (text : List Char) : Except DescriptorError Scan → Prop
  /-- All characters can be read. -/
  | runs {after : Progress} (runs : Runs context progress text after) :
      RunOutcome context position progress text (.ok (after.scan context))
  /-- A character cannot stand where it stands. -/
  | rejected {part rest : List Char} {c : Char} {before : Progress} {fault : TextFault}
      (split : text = part ++ c :: rest) (runs : Runs context progress part before)
      (rejects : Rejects context before c fault) :
      RunOutcome context position progress text
        (.error (.malformed (position + byteLength part) fault))
  /-- A name ends under which nothing is found. -/
  | unresolved {part rest : List Char} {c : Char} {before : Progress} {reversed : List Char}
      {cause : DescriptorError} (split : text = part ++ c :: rest)
      (runs : Runs context progress part before) (pending : before.phase = .name reversed)
      (ends : ¬ IsNameChar c) (failed : resolve context reversed = .error cause) :
      RunOutcome context position progress text (.error cause)

/-- What comes after one character comes after the whole front of the text. -/
theorem RunOutcome.cons {position : Nat} {next : Progress} {rest : List Char}
    {result : Except DescriptorError Scan} (steps : Steps context progress c next)
    (outcome : RunOutcome context (position + c.utf8Size) next rest result) :
    RunOutcome context position progress (c :: rest) result := by
  cases outcome with
  | runs runs => exact .runs (.cons steps runs)
  | @rejected part behind d before fault split runs rejects =>
    rw [Nat.add_assoc, ← byteLength_cons]
    exact .rejected (congrArg (c :: ·) split) (.cons steps runs) rejects
  | unresolved split runs pending ends failed =>
    exact .unresolved (congrArg (c :: ·) split) (.cons steps runs) pending ends failed

/-- What the characters of a text come to. -/
theorem runOutcome (context : Context) (position : Nat) (valid : progress.IsValid)
    (text : List Char) :
    RunOutcome context position progress text
      (run context position (progress.scan context) text) := by
  induction text generalizing position progress with
  | nil => exact .runs (.nil progress)
  | cons c rest ih =>
    rw [run]
    have outcome := stepOutcome context position valid c
    cases stepped : (progress.scan context).step context position c with
    | ok scan =>
      rw [stepped] at outcome
      cases outcome with
      | steps steps => exact .cons steps (ih (position + c.utf8Size) steps.isValid)
    | error cause =>
      rw [stepped] at outcome
      have split : c :: rest = [] ++ c :: rest := rfl
      cases outcome with
      | rejected rejects => exact .rejected split (.nil progress) rejects
      | unresolved pending ends failed =>
        exact .unresolved split (.nil progress) pending ends failed

/-- What a text that starts at a byte offset comes to without leniency. -/
inductive Outcome (context : Context) (start : Nat) (text : List Char) :
    Except DescriptorError (List Descriptor) → Prop
  /-- The text is read up to an end. -/
  | finished {after : Progress} {items : List Descriptor} (runs : Runs context {} text after)
      (finishes : after.Finishes context items) :
      Outcome context start text (.ok (erasedAll context.here 0 items))
  /-- A character cannot stand where it stands. -/
  | rejected {part rest : List Char} {c : Char} {before : Progress} {fault : TextFault}
      (split : text = part ++ c :: rest) (runs : Runs context {} part before)
      (rejects : Rejects context before c fault) :
      Outcome context start text (.error (.malformed (start + byteLength part) fault))
  /-- A name ends, or the text does, and nothing is found under the name. -/
  | unresolved {part rest : List Char} {before : Progress} {reversed : List Char}
      {cause : DescriptorError} (split : text = part ++ rest) (runs : Runs context {} part before)
      (pending : before.phase = .name reversed) (ends : ∀ c ∈ rest.head?, ¬ IsNameChar c)
      (failed : resolve context reversed = .error cause) :
      Outcome context start text (.error cause)
  /-- The text ends in a comma. -/
  | trailing {after : Progress} (runs : Runs context {} text after)
      (separated : after.phase = .separated) :
      Outcome context start text
        (.error (.malformed (start + byteLength text - 1) .trailingComma))
  /-- The text ends while brackets are open. -/
  | unterminated {after : Progress} (runs : Runs context {} text after)
      (other : after.phase ≠ .separated) (inside : after.frames ≠ []) :
      Outcome context start text
        (.error (.malformed (start + byteLength text) (.unterminated after.frames.length)))

/-- Without leniency, a text that ends inside brackets and not in a comma is unterminated. -/
theorem finish_unterminated (strict : context.options.lenient = false) (position : Nat)
    {frame : Frame} (other : phase ≠ .separated) :
    (Progress.scan context ⟨frame :: frames, items, phase⟩).finish context position
      = .error (.malformed position (.unterminated (frames.length + 1))) := by
  have unseparated : ¬ (Progress.scan context ⟨frame :: frames, items, phase⟩).phase = .separated :=
    other
  have inside : (!(Progress.scan context ⟨frame :: frames, items, phase⟩).unclosed.isEmpty
      && !context.options.lenient) = true := by
    rw [strict]
    rfl
  have count : (Progress.scan context ⟨frame :: frames, items, phase⟩).unclosed.length
      = frames.length + 1 := length_drafts items (frame :: frames)
  rw [finish, if_neg unseparated, if_pos inside, count]
  rfl

/-- What a text comes to that can be read to its last character. -/
theorem Runs.outcome (strict : context.options.lenient = false) (start : Nat)
    (runs : Runs context {} text after) :
    Outcome context start text
      ((after.scan context).finish context (start + byteLength text)) := by
  have valid := runs.isValid isValid_start
  obtain ⟨frames, items, phase⟩ := after
  cases frames with
  | cons frame outer =>
    by_cases separated : phase = .separated
    · subst separated
      exact .trailing runs rfl
    · rw [finish_unterminated strict _ separated]
      exact .unterminated runs separated (List.cons_ne_nil _ _)
  | nil =>
    rw [finish_outside]
    cases phase with
    | fresh => exact .finished runs ⟨rfl, .inl ⟨rfl, rfl⟩⟩
    | closed => exact .finished runs ⟨rfl, .inr (.closed (valid rfl))⟩
    | separated => exact .trailing runs rfl
    | name reversed =>
      cases resolved : resolve context reversed with
      | ok raw =>
        have ends : Ends context items (.name reversed) (items ++ [.leaf context.here raw]) :=
          .name resolved rfl
        have finishes : Progress.Finishes context ⟨[], items, .name reversed⟩ _ :=
          ⟨rfl, .inr ends⟩
        have finished := finish_scan (start + byteLength text) finishes
        rw [finish_outside] at finished
        rw [finished]
        exact .finished runs finishes
      | error cause =>
        dsimp only
        rw [addName, resolved]
        refine .unresolved (List.append_nil text).symm runs rfl (fun d first => ?_) resolved
        cases first

/-- An error for a name is that of its look-up, so it says nothing about the text. -/
theorem exists_of_resolve_eq_error {reversed : List Char} {cause : DescriptorError}
    (failed : resolve context reversed = .error cause) :
    ∃ error, context.scope.find (String.ofList reversed.reverse) = .error error
      ∧ cause = .ofRegistry error := by
  rw [resolve] at failed
  cases found : context.scope.find (String.ofList reversed.reverse) with
  | ok raw =>
    rw [found] at failed
    cases failed
  | error error =>
    rw [found] at failed
    exact ⟨error, rfl, (Except.error.inj failed).symm⟩

/-- An error of a look-up is no fault of the text. -/
theorem malformed_ne_ofRegistry (position : Nat) (fault : TextFault) (error : RegistryError) :
    DescriptorError.malformed position fault ≠ .ofRegistry error := by
  cases error <;> exact DescriptorError.noConfusion

/-- What a text comes to without leniency. -/
theorem readBody_outcome (strict : context.options.lenient = false) (start : Nat)
    (text : List Char) : Outcome context start text (readBody context start text) := by
  have outcome := runOutcome context start isValid_start text
  show Outcome _ _ _ (run context start (Progress.scan context {}) text >>= _)
  cases ran : run context start (Progress.scan context {}) text with
  | ok scan =>
    rw [ran] at outcome
    cases outcome with
    | runs runs => exact runs.outcome strict start
  | error cause =>
    rw [ran] at outcome
    cases outcome with
    | rejected split runs rejects => exact .rejected split runs rejects
    | unresolved split runs pending ends failed =>
      refine .unresolved split runs pending (fun d first => ?_) failed
      cases first
      exact ends

end Scan

end GenericTypes
