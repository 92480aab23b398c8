import GenericTypes.Proofs.Descriptor.Completeness
import GenericTypes.Proofs.Text.Trim

/-! # What is read is canonical

Two facts hold after each character of a text. What has been read can be read again, at the level
where it stands, and the text so far is, up to the space behind commas, the canonical text of what
has been read. When a text without blanks at its ends can end, the canonical text of what it gives
is therefore its normal form. -/

namespace GenericTypes

namespace Scan

open Descriptor

variable {context : Context} {frames : List Frame} {items items' : List Descriptor} {phase : Phase}
  {progress after : Progress} {text : List Char} {c : Char}

/-! ## What has been read can be read again -/

/-- Whether everything that has been read can be read again where it stands. -/
inductive Fits (context : Context) : List Frame → List Descriptor → Prop
  /-- Outside all brackets. -/
  | outside {items : List Descriptor} (readable : ∀ item ∈ items, Readable context 0 item) :
      Fits context [] items
  /-- Inside a pair of brackets. -/
  | inside {frame : Frame} {frames : List Frame} {items : List Descriptor}
      (found : context.scope.find frame.raw.name = .ok frame.raw)
      (inLimit : frames.length < context.options.maxDepth)
      (outer : Fits context frames frame.before)
      (readable : ∀ item ∈ items, Readable context (frames.length + 1) item) :
      Fits context (frame :: frames) items

namespace Fits

/-- What has been read inside the innermost brackets can be read there. -/
theorem readable (fits : Fits context frames items) :
    ∀ item ∈ items, Readable context frames.length item := by
  cases fits with
  | outside readable => exact readable
  | inside found inLimit outer readable => exact readable

/-- The open brackets are within the limit. -/
theorem length_le (fits : Fits context frames items) :
    frames.length ≤ context.options.maxDepth := by
  cases fits with
  | outside readable => exact Nat.zero_le _
  | inside found inLimit outer readable => exact inLimit

/-- One more descriptor can be read where it can be read again. -/
theorem append_singleton (fits : Fits context frames items) {descriptor : Descriptor}
    (readable : Readable context frames.length descriptor) :
    Fits context frames (items ++ [descriptor]) := by
  have all : ∀ item ∈ items ++ [descriptor], Readable context frames.length item := by
    rw [List.forall_mem_append, List.forall_mem_singleton]
    exact ⟨fits.readable, readable⟩
  cases fits with
  | outside => exact .outside all
  | inside found inLimit outer => exact .inside found inLimit outer all

/-- The end of an argument can be read again. -/
theorem ends (scope : context.scope.IsReadable) (fits : Fits context frames items)
    (ends : Ends context items phase items') : Fits context frames items' := by
  cases ends with
  | closed nonempty => exact fits
  | name resolved plain =>
    rename_i reversed descriptor
    have found := resolve_eq_ok_iff.1 resolved
    apply fits.append_singleton
    rw [readable_iff, plain]
    refine ⟨?_, fits.length_le, nofun⟩
    rw [scope.name_eq found]
    exact found

end Fits

/-- After a character everything that has been read can be read again. -/
theorem Steps.fits (scope : context.scope.IsReadable) (steps : Steps context progress c after)
    (fits : Fits context progress.frames progress.items) :
    Fits context after.frames after.items := by
  cases steps with
  | opens inLimit resolved =>
    have found := resolve_eq_ok_iff.1 resolved
    refine .inside ?_ inLimit fits nofun
    rw [scope.name_eq found]
    exact found
  | comma ends => exact fits.ends scope ends
  | closes ends =>
    -- the descriptor that is closed stands one level further out than its arguments
    have inner := fits.ends scope ends
    cases inner with
    | inside found inLimit outer readable =>
      exact outer.append_singleton (readable_iff.2 ⟨found, Nat.le_of_lt inLimit, readable⟩)
  | blank isBlank => exact fits
  | first isName start => exact fits
  | more isName => exact fits

/-- After a text everything that has been read can be read again. -/
theorem Runs.fits (scope : context.scope.IsReadable) (runs : Runs context progress text after)
    (fits : Fits context progress.frames progress.items) :
    Fits context after.frames after.items :=
  runs.preserves (fun progress => Fits context progress.frames progress.items)
    (fun step => step.fits scope) fits

/-! ## The text of what has been read -/

/-- The canonical text up to the innermost open brackets. -/
def lead : List Frame → List Char
  | [] => []
  | frame :: outer =>
    lead outer ++ followed (frame.before.map chars) ++ frame.raw.name.toList ++ ['<']

/-- Whether a comma has been read last. -/
def Phase.isSeparated : Phase → Bool
  | .separated => true
  | _ => false

/-- The canonical text of what has been read. The space behind a comma is part of it as soon as the
comma has been read. -/
def Progress.spelled (progress : Progress) : List Char :=
  lead progress.frames ++
    match progress.phase with
    | .name reversed => followed (progress.items.map chars) ++ reversed.reverse
    | .closed => listed (progress.items.map chars)
    | _ => followed (progress.items.map chars)

/-- The text of what has been read when an argument ends: a list of what has been read then. -/
theorem Ends.spelled (scope : context.scope.IsReadable) (ends : Ends context items phase items') :
    Progress.spelled ⟨frames, items, phase⟩ = lead frames ++ listed (items'.map chars) := by
  cases ends with
  | closed nonempty => rfl
  | name resolved plain =>
    rename_i reversed descriptor
    -- the raw type has the name under which it was found
    have letters : descriptor.chars = reversed.reverse := by
      rw [chars_eq, plain, scope.name_eq (resolve_eq_ok_iff.1 resolved), String.toList_ofList]
      exact List.append_nil _
    rw [List.map_append, List.map_singleton, listed_append_singleton, letters]
    rfl

/-- A character adds to the text of what has been read what it adds to the normal form of a text. -/
theorem Steps.spelled (scope : context.scope.IsReadable) (steps : Steps context progress c after)
    (rest : List Char) :
    progress.spelled ++ normalized progress.phase.isSeparated (c :: rest)
      = after.spelled ++ normalized after.phase.isSeparated rest := by
  cases steps with
  | opens inLimit resolved =>
    rename_i frames items reversed raw
    have letters : raw.name.toList = reversed.reverse := by
      rw [scope.name_eq (resolve_eq_ok_iff.1 resolved), String.toList_ofList]
    rw [normalized_other _ (by decide) (by decide)]
    simp [Progress.spelled, lead, letters, Phase.isSeparated]
  | comma ends =>
    rename_i frames items items' phase
    have some : items'.map chars ≠ [] := by
      rw [ne_eq, List.map_eq_nil_iff]
      exact ends.ne_nil
    rw [ends.spelled scope, normalized_comma]
    -- the comma comes with the space that is put behind it
    simp [Progress.spelled, ← listed_append_separator some, Phase.isSeparated]
  | closes ends =>
    rename_i before frames items phase descriptor
    have brackets := List.isEmpty_eq_false_iff.2 ends.ne_nil
    rw [ends.spelled scope, normalized_other _ (by decide) (by decide)]
    -- what stood behind the open bracket is now inside the text of one more descriptor
    simp [Progress.spelled, lead, listed_append_singleton, chars_eq descriptor, brackets,
      Phase.isSeparated]
  | blank isBlank =>
    -- the space was put behind the comma already
    rw [Phase.isSeparated, normalized_blank isBlank]
    rfl
  | first isName start =>
    obtain ⟨-, noComma, -, noBlank⟩ := isName
    rw [normalized_other _ noComma noBlank]
    rcases start with rfl | rfl <;> simp [Progress.spelled, Phase.isSeparated]
  | more isName =>
    obtain ⟨-, noComma, -, noBlank⟩ := isName
    rw [normalized_other _ noComma noBlank]
    simp [Progress.spelled, Phase.isSeparated]

/-- A text adds its normal form to the text of what has been read. -/
theorem Runs.spelled (scope : context.scope.IsReadable) (runs : Runs context progress text after) :
    progress.spelled ++ normalized progress.phase.isSeparated text = after.spelled := by
  induction runs with
  | nil progress => exact List.append_nil _
  | cons step runs ih => rw [step.spelled scope, ih]

/-! ## Texts that have been read -/

/-- A blank is read behind a comma only. -/
theorem Steps.phase_of_isBlank (steps : Steps context progress c after)
    (blank : isBlank c = true) : progress.phase = .separated ∧ after.phase = .fresh := by
  cases steps with
  | blank isBlank => exact ⟨rfl, rfl⟩
  | first isName start => rw [isName.2.2.2] at blank; cases blank
  | more isName => rw [isName.2.2.2] at blank; cases blank
  | _ => exact absurd blank (by decide)

/-- A text without blanks at its ends is empty if it ends outside all brackets where an argument
could start. -/
theorem Runs.eq_nil_of_fresh (trimmed : IsTrimmed text) (runs : Runs context {} text after)
    (outside : after.frames = []) (fresh : after.phase = .fresh) : text = [] := by
  rcases List.eq_nil_or_concat text with rfl | ⟨part, c, rfl⟩
  · rfl
  · rw [List.concat_eq_append] at trimmed runs
    obtain ⟨next, -, last⟩ := runs.exists_of_append
    have noBlank : isBlank c = false := trimmed.last_eq c (by simp)
    cases last with
    | cons step rest =>
      cases rest
      -- only a blank or an opening bracket leads here
      cases step with
      | opens inLimit resolved => cases outside
      | blank isBlank => rw [noBlank] at isBlank; cases isBlank
      | _ => cases fresh

/-- Nothing has been read before a text that ends where an argument could start. -/
theorem items_eq_nil_of_fresh (trimmed : IsTrimmed text) (runs : Runs context {} text after)
    (outside : after.frames = []) (fresh : after.phase = .fresh) : after.items = [] := by
  obtain rfl := runs.eq_nil_of_fresh trimmed outside fresh
  cases runs
  rfl

/-- What a text gives that has no blanks at its ends can be read outside all brackets, and its
canonical text is the normal form of the text. -/
theorem readable_and_text_of_finishes (scope : context.scope.IsReadable) (trimmed : IsTrimmed text)
    (runs : Runs context {} text after) (finishes : after.Finishes context items) :
    (∀ item ∈ items, Readable context 0 item)
      ∧ normalized false text = listed (items.map chars) := by
  have fits := runs.fits scope (.outside nofun)
  have read : normalized false text = after.spelled := runs.spelled scope
  obtain ⟨outside, ⟨fresh, rfl⟩ | ends⟩ := finishes
  · have none := items_eq_nil_of_fresh trimmed runs outside fresh
    rw [none, read, Progress.spelled, outside, fresh, none]
    exact ⟨nofun, rfl⟩
  · obtain ⟨frames, before, phase⟩ := after
    cases outside
    exact ⟨(fits.ends scope ends).readable, read.trans (ends.spelled scope)⟩

end Scan

end GenericTypes
