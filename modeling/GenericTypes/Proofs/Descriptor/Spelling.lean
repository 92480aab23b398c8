import GenericTypes.Proofs.Descriptor.RoundTrip

/-! # How texts that are read are spelled

What a text that is read without leniency looks like, character by character: no argument is empty,
nothing but a comma or a closing bracket follows a closing bracket, blanks stand behind commas only,
brackets are balanced and within the limit, and every name stands for a raw type. -/

namespace GenericTypes

/-- Whether one character can stand behind another one. -/
def MayFollow (c d : Char) : Prop :=
  (c = '<' ∨ isBlank c = true) ∧ IsNameChar d
    ∨ c = ',' ∧ (IsNameChar d ∨ isBlank d = true)
    ∨ c = '>' ∧ (d = ',' ∨ d = '>')
    ∨ IsNameChar c ∧ isBlank d = false

/-- How a text is spelled that has a reading within a limit. -/
structure IsWellSpelled (scope : Scope) (limit : Nat) (text : List Char) : Prop where
  /-- The text starts with a name. -/
  head : ∀ c ∈ text.head?, IsNameChar c
  /-- The text ends with a name or a closing bracket. -/
  last : ∀ c ∈ text.getLast?, IsNameChar c ∨ c = '>'
  /-- Neighbours fit together. -/
  follows : ∀ before c d behind, text = before ++ c :: d :: behind → MayFollow c d
  /-- All brackets are closed. -/
  closed : text.count '<' = text.count '>'
  /-- No bracket is closed before it is opened, and no more than the limit are open at once. -/
  nested : ∀ before behind, text = before ++ behind →
    before.count '>' ≤ before.count '<' ∧ before.count '<' ≤ before.count '>' + limit
  /-- A raw type is found under every name. -/
  known : ∀ before name behind, text = before ++ (name ++ behind) → IsName name →
    (∀ c ∈ before.getLast?, ¬ IsNameChar c) → (∀ c ∈ behind.head?, ¬ IsNameChar c) →
      ∃ raw, scope.find (String.ofList name) = .ok raw

namespace Scan

open Descriptor

variable {context : Context} {frames : List Frame} {items : List Descriptor}
  {progress next after : Progress} {text : List Char} {c d : Char}

/-! ## Neighbours -/

/-- An argument ends with a name under which a raw type is found, or with a closing bracket. -/
theorem Ends.phase_cases {items' : List Descriptor} {phase : Phase}
    (ends : Ends context items phase items') :
    (∃ reversed raw, phase = .name reversed ∧ resolve context reversed = .ok raw)
      ∨ phase = .closed := by
  cases ends with
  | name resolved plain => exact .inl ⟨_, _, rfl, resolved⟩
  | closed nonempty => exact .inr rfl

/-- What can be read depends on what has been read last. -/
theorem Steps.phase_before (steps : Steps context progress c after) :
    match progress.phase with
    | .fresh => IsNameChar c
    | .separated => IsNameChar c ∨ isBlank c = true
    | .closed => c = ',' ∨ c = '>'
    | .name _ => isBlank c = false := by
  cases steps with
  | opens inLimit resolved => exact (by decide : isBlank '<' = false)
  | comma ends =>
    -- an argument ends behind a name or behind a closing bracket
    rcases ends.phase_cases with ⟨reversed, raw, rfl, -⟩ | rfl
    · exact (by decide : isBlank ',' = false)
    · exact .inl rfl
  | closes ends =>
    rcases ends.phase_cases with ⟨reversed, raw, rfl, -⟩ | rfl
    · exact (by decide : isBlank '>' = false)
    · exact .inr rfl
  | blank isBlank => exact .inr isBlank
  | first isName start =>
    rcases start with rfl | rfl
    · exact isName
    · exact .inl isName
  | more isName => exact isName.2.2.2

/-- What has been read last is known from the character. -/
theorem Steps.phase_after (steps : Steps context progress c after) :
    match after.phase with
    | .fresh => c = '<' ∨ isBlank c = true
    | .separated => c = ','
    | .closed => c = '>'
    | .name _ => IsNameChar c := by
  cases steps with
  | opens inLimit resolved => exact .inl rfl
  | comma ends => exact rfl
  | closes ends => exact rfl
  | blank isBlank => exact .inr isBlank
  | first isName start => exact isName
  | more isName => exact isName

/-- Characters that are read one after the other fit together. -/
theorem Steps.mayFollow (first : Steps context progress c next)
    (second : Steps context next d after) : MayFollow c d := by
  have before := first.phase_after
  have behind := second.phase_before
  cases phase : next.phase with
  | fresh =>
    rw [phase] at before behind
    exact .inl ⟨before, behind⟩
  | separated =>
    rw [phase] at before behind
    exact .inr (.inl ⟨before, behind⟩)
  | closed =>
    rw [phase] at before behind
    exact .inr (.inr (.inl ⟨before, behind⟩))
  | name reversed =>
    rw [phase] at before behind
    exact .inr (.inr (.inr ⟨before, behind⟩))

/-- A character in a text is read between what stands in front of it and what stands behind it. -/
theorem Runs.exists_steps {part rest : List Char}
    (runs : Runs context progress (part ++ c :: rest) after) :
    ∃ before behind, Runs context progress part before ∧ Steps context before c behind
      ∧ Runs context behind rest after := by
  obtain ⟨before, first, second⟩ := runs.exists_of_append
  cases second with
  | cons step others => exact ⟨before, _, first, step, others⟩

/-! ## Names -/

/-- Where a name starts, none is being read. -/
theorem Runs.phase_ne_name (runs : Runs context {} text after)
    (noName : ∀ c ∈ text.getLast?, ¬ IsNameChar c) (reversed : List Char) :
    after.phase ≠ .name reversed := by
  intro pending
  rcases List.eq_nil_or_concat text with rfl | ⟨part, c, rfl⟩
  · cases runs
    cases pending
  · rw [List.concat_eq_append] at runs noName
    obtain ⟨before, behind, -, step, rest⟩ := runs.exists_steps
    cases rest
    -- the last character tells what is being read behind it
    have letter := step.phase_after
    rw [pending] at letter
    exact noName c (by simp) letter

/-- A name that is being read goes on as long as there are characters of names. -/
theorem Runs.eq_of_name {part reversed : List Char} (isName : ∀ c ∈ part, IsNameChar c)
    (runs : Runs context ⟨frames, items, .name reversed⟩ part after) :
    after = ⟨frames, items, .name (part.reverse ++ reversed)⟩ := by
  induction part generalizing reversed with
  | nil =>
    cases runs
    rfl
  | cons c part ih =>
    rw [List.forall_mem_cons] at isName
    obtain ⟨noOpen, noComma, noClose, noBlank⟩ := isName.1
    rw [List.reverse_cons, List.append_assoc]
    cases runs with
    | cons step others =>
      -- a character of a name can only continue the name
      cases step with
      | more letter => exact ih isName.2 others
      | opens => exact absurd rfl noOpen
      | comma => exact absurd rfl noComma
      | closes => exact absurd rfl noClose
      | first letter start => rcases start with start | start <;> cases start

/-- A whole name is being read behind it. -/
theorem Runs.phase_eq_name {name : List Char} (isName : IsName name)
    (noName : ∀ reversed, progress.phase ≠ .name reversed)
    (runs : Runs context progress name after) : after.phase = .name name.reverse := by
  obtain ⟨nonempty, letters⟩ := isName
  cases name with
  | nil => exact absurd rfl nonempty
  | cons c rest =>
    rw [List.forall_mem_cons] at letters
    obtain ⟨noOpen, noComma, noClose, noBlank⟩ := letters.1
    cases runs with
    | cons step others =>
      cases step with
      | first letter start => rw [others.eq_of_name letters.2, List.reverse_cons]
      | more letter => exact absurd rfl (noName _)
      | opens => exact absurd rfl noOpen
      | comma => exact absurd rfl noComma
      | closes => exact absurd rfl noClose
      | blank isBlank => rw [noBlank] at isBlank; cases isBlank

/-- A name ends only where a raw type is found under it. -/
theorem Steps.exists_resolved {reversed : List Char} (steps : Steps context progress c after)
    (pending : progress.phase = .name reversed) (noName : ¬ IsNameChar c) :
    ∃ raw, resolve context reversed = .ok raw := by
  cases steps with
  | opens inLimit resolved =>
    cases pending
    exact ⟨_, resolved⟩
  | comma ends =>
    rcases ends.phase_cases with ⟨_, raw, rfl, resolved⟩ | rfl
    · cases pending
      exact ⟨raw, resolved⟩
    · cases pending
  | closes ends =>
    rcases ends.phase_cases with ⟨_, raw, rfl, resolved⟩ | rfl
    · cases pending
      exact ⟨raw, resolved⟩
    · cases pending
  | blank isBlank => cases pending
  | first letter start => exact absurd letter noName
  | more letter => exact absurd letter noName

/-! ## Whole texts -/

/-- A text without blanks at its ends that has a reading is well spelled. -/
theorem isWellSpelled_of_finishes (trimmed : IsTrimmed text) (runs : Runs context {} text after)
    (finishes : after.Finishes context items) :
    IsWellSpelled context.scope context.options.maxDepth text where
  head := by
    intro c first
    cases runs with
    | nil => cases first
    | cons step others =>
      cases first
      exact step.phase_before
  last := by
    intro c last
    have noBlank := trimmed.last_eq c last
    obtain ⟨part, rfl⟩ := List.getLast?_eq_some_iff.1 last
    obtain ⟨before, behind, -, step, rest⟩ := runs.exists_steps
    cases rest
    have letter := step.phase_after
    obtain ⟨outside, ⟨fresh, -⟩ | ends⟩ := finishes
    · -- only a blank or an opening bracket leads to where an argument can start
      cases step with
      | opens inLimit resolved => cases outside
      | blank isBlank => rw [noBlank] at isBlank; cases isBlank
      | _ => cases fresh
    · rcases ends.phase_cases with ⟨reversed, raw, pending, -⟩ | closed
      · rw [pending] at letter
        exact .inl letter
      · rw [closed] at letter
        exact .inr letter
  follows := by
    rintro before c d behind rfl
    obtain ⟨progress, next, -, first, others⟩ := runs.exists_steps
    cases others with
    | cons second rest => exact first.mayFollow second
  closed := by
    have level := runs.length_frames_of_start
    rw [finishes.1, List.length_nil, Nat.zero_add] at level
    exact level.symm
  nested := by
    rintro before behind rfl
    obtain ⟨progress, first, -⟩ := runs.exists_of_append
    have level := first.length_frames_of_start
    have within := first.length_le
    omega
  known := by
    rintro before name behind rfl isName noName noLetter
    obtain ⟨progress, first, second⟩ := runs.exists_of_append
    obtain ⟨next, nameRuns, others⟩ := second.exists_of_append
    have pending := nameRuns.phase_eq_name isName (first.phase_ne_name noName)
    have resolved : ∃ raw, resolve context name.reverse = .ok raw := by
      -- the name ends where the text ends, or where the next character ends it
      cases others with
      | nil =>
        obtain ⟨-, ⟨fresh, -⟩ | ends⟩ := finishes
        · rw [pending] at fresh
          cases fresh
        · rcases ends.phase_cases with ⟨_, raw, name, resolved⟩ | closed
          · rw [pending] at name
            cases name
            exact ⟨raw, resolved⟩
          · rw [pending] at closed
            cases closed
      | cons step rest =>
        exact step.exists_resolved pending (noLetter _ (by simp))
    obtain ⟨raw, resolved⟩ := resolved
    rw [resolve_eq_ok_iff, List.reverse_reverse] at resolved
    exact ⟨raw, resolved⟩

end Scan

end GenericTypes
