import GenericTypes.Text.Blank

/-! # The space behind commas

A text of descriptors has a space behind each comma. `Respaced` says that a text comes from such a
text by other spacing: behind a comma there is one blank of any kind, or none. `normalized` puts the
space back. -/

namespace GenericTypes

/-! ## Other spacing -/

/-- Whether the second text comes from the first one when each comma with its space is replaced by
the comma alone, or by the comma and one blank. -/
inductive Respaced : List Char → List Char → Prop
  /-- There is nothing to replace in the empty text. -/
  | nil : Respaced [] []
  /-- Other characters than commas stay. -/
  | keep {c : Char} {source text : List Char} (other : c ≠ ',') (rest : Respaced source text) :
      Respaced (c :: source) (c :: text)
  /-- A comma has lost its space. -/
  | bare {source text : List Char} (rest : Respaced source text) :
      Respaced (',' :: ' ' :: source) (',' :: text)
  /-- A comma has one blank behind it. -/
  | blank {b : Char} {source text : List Char} (isBlank : isBlank b = true)
      (rest : Respaced source text) :
      Respaced (',' :: ' ' :: source) (',' :: b :: text)

namespace Respaced

variable {source text rest : List Char}

/-- Other spacing in one text and then in another one. -/
theorem append {source' text' : List Char} (first : Respaced source text)
    (second : Respaced source' text') : Respaced (source ++ source') (text ++ text') := by
  induction first with
  | nil => exact second
  | keep other rest ih => exact .keep other ih
  | bare rest ih => exact .bare ih
  | blank isBlank rest ih => exact .blank isBlank ih

/-- A part without commas stays as it is. -/
theorem refl {part : List Char} (noComma : ∀ c ∈ part, c ≠ ',') : Respaced part part := by
  induction part with
  | nil => exact .nil
  | cons c part ih =>
    rw [List.forall_mem_cons] at noComma
    exact .keep noComma.1 (ih noComma.2)

/-- What comes from a text that starts with another character than a comma starts with it. -/
theorem exists_of_cons {c : Char} (other : c ≠ ',') (respaced : Respaced (c :: source) text) :
    ∃ rest, text = c :: rest ∧ Respaced source rest := by
  cases respaced with
  | keep other respaced => exact ⟨_, rfl, respaced⟩
  | bare respaced => exact absurd rfl other
  | blank isBlank respaced => exact absurd rfl other

/-- What comes from a text that starts with a part without commas starts with that part. -/
theorem exists_of_append {part : List Char} (noComma : ∀ c ∈ part, c ≠ ',')
    (respaced : Respaced (part ++ source) text) :
    ∃ rest, text = part ++ rest ∧ Respaced source rest := by
  induction part generalizing text with
  | nil => exact ⟨text, rfl, respaced⟩
  | cons c part ih =>
    rw [List.forall_mem_cons] at noComma
    obtain ⟨behind, rfl, tail⟩ := exists_of_cons noComma.1 respaced
    obtain ⟨rest, rfl, others⟩ := ih noComma.2 tail
    exact ⟨rest, rfl, others⟩

/-- What comes from a text that starts with a comma and a space starts with a comma and one blank,
or with a comma alone. -/
theorem exists_of_separator (respaced : Respaced (',' :: ' ' :: source) text) :
    ∃ blanks rest, text = ',' :: (blanks ++ rest) ∧ Respaced source rest
      ∧ (blanks = [] ∨ ∃ b, isBlank b = true ∧ blanks = [b]) := by
  cases respaced with
  | keep other respaced => exact absurd rfl other
  | bare respaced => exact ⟨[], _, rfl, respaced, .inl rfl⟩
  | blank isBlank respaced => exact ⟨[_], _, rfl, respaced, .inr ⟨_, isBlank, rfl⟩⟩

/-- Nothing comes from the empty text but itself. -/
theorem eq_nil (respaced : Respaced [] text) : text = [] := by
  cases respaced
  rfl

end Respaced

/-! ## Normal spacing -/

/-- A text with one space behind each comma, in the place of a blank if there is one. The flag says
whether the text stands behind a comma. -/
def normalized (afterComma : Bool) : List Char → List Char
  | [] => []
  | c :: rest =>
    if afterComma && isBlank c then normalized false rest
    else if c = ',' then ',' :: ' ' :: normalized true rest
    else c :: normalized false rest

/-- A comma gets its space. -/
theorem normalized_comma (afterComma : Bool) (rest : List Char) :
    normalized afterComma (',' :: rest) = ',' :: ' ' :: normalized true rest := by
  have noBlank : isBlank ',' = false := by decide
  rw [normalized, noBlank, Bool.and_false, if_neg Bool.false_ne_true, if_pos rfl]

/-- Other characters than commas and blanks stay. -/
theorem normalized_other (afterComma : Bool) {c : Char} (noComma : c ≠ ',')
    (noBlank : isBlank c = false) (rest : List Char) :
    normalized afterComma (c :: rest) = c :: normalized false rest := by
  rw [normalized, noBlank, Bool.and_false, if_neg Bool.false_ne_true, if_neg noComma]

/-- A blank behind a comma gives way to the space that is there already. -/
theorem normalized_blank {c : Char} (blank : isBlank c = true) (rest : List Char) :
    normalized true (c :: rest) = normalized false rest := by
  rw [normalized, blank, Bool.and_self, if_pos rfl]

/-- Every text comes from its normal form by other spacing, also behind a comma. -/
theorem respaced_normalized (text : List Char) :
    Respaced (normalized false text) text
      ∧ Respaced (',' :: ' ' :: normalized true text) (',' :: text) := by
  induction text with
  | nil => exact ⟨.nil, .bare .nil⟩
  | cons c rest ih =>
    by_cases isComma : c = ','
    · subst isComma
      rw [normalized_comma, normalized_comma]
      exact ⟨ih.2, .bare ih.2⟩
    · have kept : Respaced (normalized false (c :: rest)) (c :: rest) := by
        rw [normalized, Bool.false_and, if_neg Bool.false_ne_true, if_neg isComma]
        exact .keep isComma ih.1
      refine ⟨kept, ?_⟩
      by_cases blank : isBlank c = true
      · rw [normalized_blank blank]
        exact .blank blank ih.1
      · -- what is not blank is read behind a comma as anywhere else
        rw [normalized, eq_false_of_ne_true blank, Bool.and_false, if_neg Bool.false_ne_true,
          if_neg isComma]
        exact .bare (.keep isComma ih.1)

end GenericTypes
