import GenericTypes.Proofs.Descriptor.Grammar
import GenericTypes.Proofs.Descriptor.Outcome

/-! # Where errors in a text are reported

Reading without leniency fails at the first character behind which a text cannot be completed any
more, or at the end of a text that can still be completed. What has been read determines the outline
of the text up to there: the outline can go on with a character that can be read, and cannot go on
with one that is rejected. This decides where reading fails, for every text whose names are all
found, and `isViable_iff` says the same of the grammar.

Offsets count bytes, and every offset that occurs lies between two characters. -/

namespace GenericTypes

variable {text part rest : List Char} {position limit : Nat} {c : Char}

/-! ## Offsets -/

/-- Whether a byte offset lies between two characters of a text, or at one of its ends. -/
def IsBoundary (text : List Char) (position : Nat) : Prop :=
  ∃ before behind, text = before ++ behind ∧ position = byteLength before

/-- Whether some characters stand in a text between two byte offsets. -/
def IsSlice (text : List Char) (start stop : Nat) (part : List Char) : Prop :=
  ∃ before behind, text = before ++ (part ++ behind) ∧ start = byteLength before
    ∧ stop = byteLength (before ++ part)

/-- The byte offset in a text of what stands behind the front of its trimmed text. -/
def offsetBehind (text part : List Char) : Nat :=
  byteLength (text.takeWhile isBlank ++ part)

/-- What stands behind the front of a trimmed text starts between two characters of the text. -/
theorem isBoundary_offsetBehind (split : trim text = part ++ rest) :
    IsBoundary text (offsetBehind text part) := by
  obtain ⟨trail, whole, -⟩ := exists_eq_append_trim text
  refine ⟨text.takeWhile isBlank ++ part, rest ++ trail, ?_, rfl⟩
  rw [split] at whole
  simpa using whole

/-- Offsets in the trimmed text are counted from its start. -/
theorem offsetBehind_append (text part : List Char) :
    offsetBehind text [] + byteLength part = offsetBehind text part := by
  rw [offsetBehind, offsetBehind, List.append_nil, byteLength_append]

/-- One byte in front of the end of a text that ends in a comma, the comma starts. -/
theorem offsetBehind_comma (text part : List Char) :
    offsetBehind text (part ++ [',']) - 1 = offsetBehind text part := by
  have comma : Char.utf8Size ',' = 1 := rfl
  simp only [offsetBehind, byteLength_append, byteLength_cons, byteLength_nil, comma]
  omega

/-! ## Names -/

/-- Whether a raw type is found under every name in a text. -/
def NamesResolve (scope : Scope) (text : List Char) : Prop :=
  ∀ before name behind, text = before ++ (name ++ behind) → IsName name →
    (∀ c ∈ before.getLast?, ¬ IsNameChar c) → (∀ c ∈ behind.head?, ¬ IsNameChar c) →
      ∃ raw, scope.find (String.ofList name) = .ok raw

/-- A blank is no character of a name. -/
theorem not_isNameChar_of_isBlank (blank : isBlank c = true) : ¬ IsNameChar c := by
  rintro ⟨-, -, -, noBlank⟩
  rw [noBlank] at blank
  cases blank

/-- The names in a text are those in its trimmed text. -/
theorem NamesResolve.trim {scope : Scope} (resolve : NamesResolve scope text) :
    NamesResolve scope (trim text) := by
  intro before name behind split isName starts ends
  obtain ⟨trail, whole, blank⟩ := exists_eq_append_trim text
  refine resolve (text.takeWhile isBlank ++ before) name (behind ++ trail) ?_ isName ?_ ?_
  · rw [split] at whole
    simpa using whole
  -- the blanks around the trimmed text do not belong to any name
  · intro c last
    rw [List.getLast?_append, Option.mem_def, Option.or_eq_some_iff] at last
    rcases last with last | ⟨-, last⟩
    · exact starts c last
    · have blanks := List.all_eq_true.1 (List.all_takeWhile (p := isBlank) (l := text))
      exact not_isNameChar_of_isBlank (blanks c (List.mem_of_getLast? last))
  · intro c first
    rw [List.head?_append, Option.mem_def, Option.or_eq_some_iff] at first
    rcases first with first | ⟨-, first⟩
    · exact ends c first
    · exact not_isNameChar_of_isBlank (blank c (List.mem_of_head? first))

namespace Scan

variable {context : Context} {frames : List Frame} {items items' : List Descriptor}
  {phase : Phase} {progress after : Progress}

/-! ## Outlines of what has been read -/

/-- What stands at the end of what has been read. -/
def Phase.mark : Phase → Mark
  | .fresh => .fresh
  | .name _ => .letter
  | .closed => .closed
  | .separated => .separated

/-- The outline of what has been read. -/
def Progress.outline (progress : Progress) : Outline :=
  ⟨progress.frames.length, progress.phase.mark⟩

/-- The outline says how many brackets are open and what stands at the end. -/
@[simp] theorem outline_mk (frames : List Frame) (items : List Descriptor) (phase : Phase) :
    Progress.outline ⟨frames, items, phase⟩ = ⟨frames.length, phase.mark⟩ := rfl

/-- Where an argument can end, an item does. -/
theorem Ends.isEnd (ends : Ends context items phase items') : phase.mark.isEnd = true := by
  cases ends with
  | name resolved plain => rfl
  | closed nonempty => rfl

/-- Where an argument can start, no item ends. -/
theorem Phase.IsStart.isEnd (start : phase.IsStart) : phase.mark.isEnd = false := by
  rcases start with rfl | rfl <;> rfl

/-- Nothing but a name leaves a character of a name. -/
theorem Phase.mark_ne_letter (noName : ∀ reversed, phase ≠ .name reversed) :
    phase.mark ≠ .letter := by
  cases phase with
  | name reversed => exact absurd rfl (noName reversed)
  | _ => exact Mark.noConfusion

/-- Nothing but a comma leaves a comma. -/
theorem Phase.mark_ne_separated (other : phase ≠ .separated) : phase.mark ≠ .separated := by
  cases phase with
  | separated => exact absurd rfl other
  | _ => exact Mark.noConfusion

/-- The outline goes on with a character that can be read. -/
theorem Steps.step?_outline (steps : Steps context progress c after) :
    progress.outline.step? context.options.maxDepth c = some after.outline := by
  cases steps with
  | opens inLimit resolved =>
    rw [outline_mk, Outline.step?_open, if_pos ⟨rfl, inLimit⟩]
    rfl
  | comma ends =>
    rw [outline_mk, Outline.step?_comma, if_pos ends.isEnd]
    rfl
  | closes ends =>
    rw [outline_mk, Outline.step?_close, if_pos ⟨ends.isEnd, Nat.succ_ne_zero _⟩]
    rfl
  | blank isBlank =>
    rw [outline_mk, Outline.step?_blank _ _ isBlank]
    rfl
  | first isName start =>
    rw [outline_mk, Outline.step?_letter _ _ isName]
    rcases start with rfl | rfl <;> rfl
  | more isName =>
    rw [outline_mk, Outline.step?_letter _ _ isName]
    rfl

/-- The outline cannot go on with a character that is rejected. -/
theorem Rejects.step?_outline {fault : TextFault} (rejects : Rejects context progress c fault) :
    progress.outline.step? context.options.maxDepth c = none := by
  cases rejects with
  | missingName noName =>
    rw [outline_mk, Outline.step?_open, if_neg]
    exact fun named => Phase.mark_ne_letter noName named.1
  | tooDeep full =>
    rw [outline_mk, Outline.step?_open, if_neg]
    exact fun room => absurd room.2 (Nat.not_lt.2 full)
  | comma start =>
    rw [outline_mk, Outline.step?_comma, start.isEnd]
    rfl
  | unbalanced =>
    rw [outline_mk, Outline.step?_close, if_neg]
    exact fun inside => inside.2 rfl
  | closes start =>
    rw [outline_mk, Outline.step?_close, start.isEnd, if_neg]
    exact fun inside => Bool.false_ne_true inside.1
  | blank isBlank other =>
    rw [outline_mk, Outline.step?_blank _ _ isBlank, if_neg]
    exact Phase.mark_ne_separated other
  | name isName =>
    rw [outline_mk, Outline.step?_letter _ _ isName]
    rfl

/-- Reading a text runs through its outline. -/
theorem Runs.run?_outline (runs : Runs context progress text after) :
    progress.outline.run? context.options.maxDepth text = some after.outline := by
  induction runs with
  | nil progress => rfl
  | cons step runs ih => rw [Outline.run?_cons, step.step?_outline, Option.bind_some, ih]

/-- What can be read can be completed. -/
theorem Runs.isViable (runs : Runs context {} text after) :
    IsViable context.options.maxDepth text :=
  isViable_iff.2 ⟨_, runs.run?_outline⟩

/-- Behind a character that is rejected nothing can be completed. -/
theorem Rejects.not_isViable {fault : TextFault} (runs : Runs context {} part progress)
    (rejects : Rejects context progress c fault) :
    ¬ IsViable context.options.maxDepth (part ++ [c]) := by
  rw [isViable_iff]
  rintro ⟨outline, ran⟩
  have front : Outline.run? context.options.maxDepth {} part = some progress.outline :=
    runs.run?_outline
  rw [Outline.run?_append, front, Option.bind_some, Outline.run?_cons,
    rejects.step?_outline] at ran
  cases ran

/-- What has been read is a whole text exactly outside all brackets where an item ends. -/
theorem Runs.isItemList_iff (runs : Runs context {} text after) :
    IsItemList context.options.maxDepth text ↔
      after.frames = [] ∧ after.phase.mark.isEnd = true := by
  have ran : Outline.run? context.options.maxDepth {} text = some after.outline :=
    runs.run?_outline
  rw [GenericTypes.isItemList_iff, ran]
  constructor
  · rintro ⟨mark, ends, same⟩
    obtain ⟨level, last⟩ := Outline.mk.inj (Option.some.inj same)
    exact ⟨List.length_eq_zero_iff.1 level, last ▸ ends⟩
  · rintro ⟨outside, ends⟩
    refine ⟨after.phase.mark, ends, ?_⟩
    rw [Progress.outline, outside]
    rfl

/-- A comma has been read last exactly if what has been read ends in it. -/
theorem Runs.phase_eq_separated_iff (runs : Runs context {} text after) :
    after.phase = .separated ↔ ∃ part, text = part ++ [','] := by
  constructor
  · intro separated
    obtain ⟨frames, items, phase⟩ := after
    cases separated
    obtain ⟨part, read, ended, split, -, -⟩ := runs.exists_of_separated
    exact ⟨part, split⟩
  · rintro ⟨part, rfl⟩
    obtain ⟨before, behind, -, step, rest⟩ := runs.exists_steps
    cases rest
    cases step with
    | comma ends => rfl
    | blank blank => exact absurd blank (by decide)
    | first isName start => exact absurd rfl isName.2.1
    | more isName => exact absurd rfl isName.2.1

/-- Where a name ends in a text whose names are all found, something is found under it. -/
theorem Runs.resolve_ne_error {before : Progress} {reversed : List Char}
    (found : NamesResolve context.scope (part ++ rest)) (runs : Runs context {} part before)
    (pending : before.phase = .name reversed) (ends : ∀ c ∈ rest.head?, ¬ IsNameChar c)
    (cause : DescriptorError) : resolve context reversed ≠ .error cause := by
  intro failed
  obtain ⟨frames, items, phase⟩ := before
  cases pending
  obtain ⟨front, phase, rfl, isName, first, start⟩ := runs.exists_of_name
  have starts := first.not_isNameChar_last start.ne_name
  obtain ⟨raw, some⟩ := found front _ rest (List.append_assoc _ _ _) isName starts ends
  obtain ⟨error, missing, -⟩ := exists_of_resolve_eq_error failed
  rw [some] at missing
  cases missing

end Scan

/-! ## The place of an error -/

/-- Whether a byte offset is that of the first character of a text that cannot be right: what stands
in front of it in the trimmed text can be completed, and together with it cannot. -/
def IsFirstWrong (limit : Nat) (text : List Char) (position : Nat) : Prop :=
  ∃ part c behind, trim text = part ++ c :: behind ∧ position = offsetBehind text part
    ∧ IsViable limit part ∧ ¬ IsViable limit (part ++ [c])

/-- Whether a text can be completed and is not complete, and a fault is found at its end: at the
comma that the trimmed text ends in, or else behind it. -/
def IsIncomplete (limit : Nat) (text : List Char) (position : Nat) (fault : TextFault) : Prop :=
  IsViable limit (trim text) ∧ ¬ IsItemList limit (trim text)
    ∧ ((∃ part, trim text = part ++ [','] ∧ position = offsetBehind text part
          ∧ fault = .trailingComma)
      ∨ (trim text).getLast? ≠ some ',' ∧ position = offsetBehind text (trim text)
          ∧ ∃ unclosed, fault = .unterminated unclosed)

namespace Descriptor

open Scan

/-- Reading a text without leniency comes to what its trimmed text does. -/
theorem readAll_outcome (scope : Scope) (limit : Nat) (here : Address) (text : String) :
    Outcome ⟨scope, ⟨limit, false⟩, here⟩ (offsetBehind text.toList []) (trim text.toList)
      (readAll scope ⟨limit, false⟩ here text) := by
  have start : byteLength text.toList - byteLength (trimStart text.toList)
      = offsetBehind text.toList [] := by
    rw [byteLength_takeWhile_isBlank, offsetBehind, List.append_nil]
  show Outcome _ _ _ (readBody _ _ _)
  rw [start]
  exact readBody_outcome rfl _ _

variable {scope : Scope} {here : Address}

/-- A text whose names are all found fails at the first character that cannot be right, or because
it is not complete. -/
theorem exists_place_of_error {text : String} {error : DescriptorError}
    (found : NamesResolve scope text.toList)
    (failed : readAll scope ⟨limit, false⟩ here text = .error error) :
    ∃ position fault, error = .malformed position fault
      ∧ (IsFirstWrong limit text.toList position
        ∨ IsIncomplete limit text.toList position fault) := by
  have outcome := readAll_outcome scope limit here text
  have found := found.trim
  rw [failed] at outcome
  cases outcome with
  | @rejected part rest c before fault split runs rejects =>
    have place := offsetBehind_append text.toList part
    exact ⟨_, fault, rfl, .inl ⟨part, c, rest, split, place, runs.isViable,
      rejects.not_isViable runs⟩⟩
  | unresolved split runs pending ends failed =>
    -- the name that is not found would be one of the names in the text
    rw [split] at found
    exact absurd failed (runs.resolve_ne_error found pending ends _)
  | trailing runs separated =>
    obtain ⟨part, comma⟩ := runs.phase_eq_separated_iff.1 separated
    have incomplete : ¬ IsItemList limit (trim text.toList) := by
      intro isList
      -- no item ends behind a comma
      have ends := (runs.isItemList_iff.1 isList).2
      rw [separated] at ends
      cases ends
    refine ⟨_, _, rfl, .inr ⟨runs.isViable, incomplete, .inl ⟨part, comma, ?_, rfl⟩⟩⟩
    rw [offsetBehind_append, comma, offsetBehind_comma]
  | unterminated runs other inside =>
    have incomplete : ¬ IsItemList limit (trim text.toList) :=
      fun isList => inside (runs.isItemList_iff.1 isList).1
    have noComma : (trim text.toList).getLast? ≠ some ',' :=
      fun last => other (runs.phase_eq_separated_iff.2 (List.getLast?_eq_some_iff.1 last))
    have place := offsetBehind_append text.toList (trim text.toList)
    exact ⟨_, _, rfl, .inr ⟨runs.isViable, incomplete, .inr ⟨noComma, place, _, rfl⟩⟩⟩

/-- A fault of a text is reported between two characters. -/
theorem isBoundary_of_error {text : String} {fault : TextFault}
    (failed : readAll scope ⟨limit, false⟩ here text = .error (.malformed position fault)) :
    IsBoundary text.toList position := by
  have outcome := readAll_outcome scope limit here text
  rw [failed] at outcome
  cases outcome with
  | rejected split runs rejects =>
    rw [offsetBehind_append]
    exact isBoundary_offsetBehind split
  | unresolved split runs pending ends failed =>
    obtain ⟨error, -, same⟩ := exists_of_resolve_eq_error failed
    exact absurd same (malformed_ne_ofRegistry _ _ error)
  | trailing runs separated =>
    obtain ⟨part, comma⟩ := runs.phase_eq_separated_iff.1 separated
    rw [offsetBehind_append, comma, offsetBehind_comma]
    exact isBoundary_offsetBehind comma
  | unterminated runs other inside =>
    rw [offsetBehind_append]
    exact isBoundary_offsetBehind (List.append_nil _).symm

/-- A text whose names are all found is read exactly if its trimmed text is empty or a list of
items. -/
theorem exists_readAll_eq_ok_iff {text : String} (found : NamesResolve scope text.toList) :
    (∃ descriptors, readAll scope ⟨limit, false⟩ here text = .ok descriptors) ↔
      trim text.toList = [] ∨ IsItemList limit (trim text.toList) := by
  have outcome := readAll_outcome scope limit here text
  constructor
  · rintro ⟨descriptors, read⟩
    rw [read] at outcome
    cases outcome with
    | finished runs finishes =>
      obtain ⟨outside, ⟨fresh, -⟩ | ends⟩ := finishes
      · exact .inl (runs.eq_nil_of_fresh (isTrimmed_trim _) outside fresh)
      · exact .inr (runs.isItemList_iff.2 ⟨outside, ends.isEnd⟩)
  · rintro (empty | isList)
    · refine ⟨[], ?_⟩
      show readBody _ _ (trim text.toList) = _
      rw [empty]
      rfl
    · cases read : readAll scope ⟨limit, false⟩ here text with
      | ok descriptors => exact ⟨descriptors, rfl⟩
      | error cause =>
        obtain ⟨position, fault, -, wrong | incomplete⟩ := exists_place_of_error found read
        · -- what stands behind the wrong character would complete the text
          obtain ⟨part, c, behind, split, -, -, notViable⟩ := wrong
          rw [split, List.append_cons] at isList
          exact absurd ⟨behind, isList⟩ notViable
        · exact absurd isList incomplete.2.1

/-- **Where reading without leniency fails.** A text whose names are all found is read exactly if
its trimmed text is empty or a list of items. Reading it can fail only at the first character that
cannot be right, or because the text is not complete. Every fault is reported between two characters
of the text, and whatever is read as a name on the way is a slice of the trimmed text. -/
theorem readAll_error_position (scope : Scope) (limit : Nat) (here : Address) (text : String) :
    (NamesResolve scope text.toList →
      ((∃ descriptors, readAll scope ⟨limit, false⟩ here text = .ok descriptors) ↔
          trim text.toList = [] ∨ IsItemList limit (trim text.toList))
        ∧ ∀ error, readAll scope ⟨limit, false⟩ here text = .error error →
          ∃ position fault, error = .malformed position fault
            ∧ (IsFirstWrong limit text.toList position
              ∨ IsIncomplete limit text.toList position fault))
      ∧ (∀ position fault,
        readAll scope ⟨limit, false⟩ here text = .error (.malformed position fault) →
          IsBoundary text.toList position)
      ∧ ∀ part rest scan reversed, trim text.toList = part ++ rest →
        Scan.run ⟨scope, ⟨limit, false⟩, here⟩ (offsetBehind text.toList []) {} part = .ok scan →
        scan.phase = .name reversed →
          ∃ before, IsPending part before reversed.reverse ∧ IsName reversed.reverse
            ∧ IsSlice (trim text.toList) (byteLength before) (byteLength part)
              reversed.reverse := by
  refine ⟨fun found => ⟨exists_readAll_eq_ok_iff found, fun _ failed => ?_⟩,
    fun _ _ failed => isBoundary_of_error failed, ?_⟩
  · exact exists_place_of_error found failed
  · intro part rest scan reversed split ran named
    obtain ⟨after, runs, rfl⟩ := (run_eq_ok_iff isValid_start).1 ran
    obtain ⟨frames, items, phase⟩ := after
    obtain rfl : phase = .name reversed := named
    -- the name ends where the scan is, and starts where an argument can start
    obtain ⟨before, start, rfl, isName, first, isStart⟩ := runs.exists_of_name
    have starts := first.not_isNameChar_last isStart.ne_name
    refine ⟨before, ⟨rfl, isName.2, starts⟩, isName, before, rest, ?_, rfl, rfl⟩
    rw [split, List.append_assoc]

/-- Where everything is found, a name behind closed brackets is reported as the first character that
cannot be right, at an offset that counts the bytes of the blank and of the names in front of it. -/
theorem readAll_error_position_behind_brackets :
    let root := RawType.ofDeclaration (.top "A")
    let scope : Scope := ⟨fun _ => .ok root, root⟩
    NamesResolve scope " é<é>é".toList
      ∧ readAll scope ⟨64, false⟩ ⟨0, []⟩ " é<é>é" = .error (.malformed 7 .nameAfterClose)
      ∧ ¬ IsItemList 64 (trim " é<é>é".toList)
      ∧ IsFirstWrong 64 " é<é>é".toList 7 ∧ IsBoundary " é<é>é".toList 7
      ∧ IsSlice (trim " é<é>é".toList) 3 5 "é".toList := by
  intro root scope
  have found : NamesResolve scope " é<é>é".toList := fun _ _ _ _ _ _ _ => ⟨root, rfl⟩
  have failed : readAll scope ⟨64, false⟩ ⟨0, []⟩ " é<é>é"
      = .error (.malformed 7 .nameAfterClose) := by rfl
  have inside : ∃ scan, Scan.run ⟨scope, ⟨64, false⟩, ⟨0, []⟩⟩ (offsetBehind " é<é>é".toList []) {}
      "é<é".toList = .ok scan ∧ scan.phase = .name "é".toList := ⟨_, rfl, rfl⟩
  obtain ⟨scan, ran, named⟩ := inside
  obtain ⟨place, boundary, slices⟩ := readAll_error_position scope 64 ⟨0, []⟩ " é<é>é"
  have split : trim " é<é>é".toList = "é<é".toList ++ ">é".toList := by decide
  obtain ⟨before, pending, -, slice⟩ := slices _ _ scan _ split ran named
  obtain rfl : before = "é<".toList :=
    (List.append_left_inj "é".toList).1 pending.eq_append.symm
  obtain ⟨read, place⟩ := place found
  have notList : ¬ IsItemList 64 (trim " é<é>é".toList) := by
    intro isList
    obtain ⟨descriptors, ok⟩ := read.2 (.inr isList)
    rw [failed] at ok
    cases ok
  obtain ⟨position, fault, same, first | incomplete⟩ := place _ failed
  · cases same
    exact ⟨found, failed, notList, first, boundary _ _ failed, slice⟩
  · -- behind the last name the text cannot be completed any more
    exact absurd incomplete.1 (by decide)

end Descriptor

end GenericTypes
