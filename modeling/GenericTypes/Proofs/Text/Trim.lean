import GenericTypes.Text.Blank

/-! # Trimmed texts

A text is trimmed when it neither starts nor ends in a blank. Trimming makes a text trimmed and
leaves a trimmed text as it is; every text is its trimmed text with blanks around it. -/

namespace GenericTypes

/-- Whether a text neither starts nor ends in a blank. -/
structure IsTrimmed (text : List Char) : Prop where
  /-- The first character is no blank. -/
  head_eq : ∀ c ∈ text.head?, isBlank c = false
  /-- The last character is no blank. -/
  last_eq : ∀ c ∈ text.getLast?, isBlank c = false

/-- Nothing is removed in front of a text that does not start in a blank. -/
theorem trimStart_eq_self {text : List Char} (head : ∀ c ∈ text.head?, isBlank c = false) :
    trimStart text = text := by
  cases text with
  | nil => rfl
  | cons c rest =>
    rw [trimStart, List.dropWhile_cons_of_neg]
    rw [head c (by rw [List.head?_cons, Option.mem_some])]
    exact Bool.false_ne_true

/-- Nothing is removed behind a text that does not end in a blank. -/
theorem trimEnd_eq_self {text : List Char} (last : ∀ c ∈ text.getLast?, isBlank c = false) :
    trimEnd text = text := by
  -- blanks behind a text are removed in front of the reversed one
  have reversed : trimStart text.reverse = text.reverse := by
    apply trimStart_eq_self
    rwa [List.head?_reverse]
  rw [trimEnd]
  exact (congrArg List.reverse reversed).trans text.reverse_reverse

/-- What is left after blanks were removed in front does not start in a blank. -/
theorem head_trimStart (text : List Char) : ∀ c ∈ (trimStart text).head?, isBlank c = false := by
  intro c first
  have kept := List.head?_dropWhile_not isBlank text
  rw [trimStart, Option.mem_def] at first
  rw [first] at kept
  simpa using kept

/-- What is left after blanks were removed behind does not end in a blank. -/
theorem last_trimEnd (text : List Char) : ∀ c ∈ (trimEnd text).getLast?, isBlank c = false := by
  rw [trimEnd, List.getLast?_reverse]
  exact head_trimStart text.reverse

/-- Blanks behind a text can be removed without a change to its first character. -/
theorem head_trimEnd {text : List Char} (head : ∀ c ∈ text.head?, isBlank c = false) :
    ∀ c ∈ (trimEnd text).head?, isBlank c = false := by
  intro c first
  obtain ⟨removed, eq⟩ := (List.dropWhile_suffix (l := text.reverse) isBlank)
  -- what is left is the front of the text, so it starts in the same way
  have whole : trimEnd text ++ removed.reverse = text := by
    rw [trimEnd, ← List.reverse_append, eq, List.reverse_reverse]
  apply head
  rw [← whole, Option.mem_def, List.head?_append, Option.mem_def.1 first, Option.some_or]

/-- A text is its trimmed text between blanks. -/
theorem exists_eq_append_trim (text : List Char) :
    ∃ trail, text = text.takeWhile isBlank ++ (trim text ++ trail)
      ∧ ∀ c ∈ trail, isBlank c = true := by
  refine ⟨((trimStart text).reverse.takeWhile isBlank).reverse, ?_, ?_⟩
  · have inner : trim text ++ ((trimStart text).reverse.takeWhile isBlank).reverse
        = trimStart text := by
      rw [trim, trimEnd, ← List.reverse_append, List.takeWhile_append_dropWhile,
        List.reverse_reverse]
    rw [inner, trimStart, List.takeWhile_append_dropWhile]
  · intro c mem
    exact List.all_eq_true.1 List.all_takeWhile c (List.mem_reverse.1 mem)

/-- The bytes that are removed in front of a text are those of its leading blanks. -/
theorem byteLength_takeWhile_isBlank (text : List Char) :
    byteLength text - byteLength (trimStart text) = byteLength (text.takeWhile isBlank) := by
  have whole := congrArg byteLength (List.takeWhile_append_dropWhile (p := isBlank) (l := text))
  rw [byteLength_append] at whole
  rw [trimStart]
  omega

/-- A trimmed text stays as it is. -/
theorem trim_eq_self {text : List Char} (trimmed : IsTrimmed text) : trim text = text := by
  rw [trim, trimStart_eq_self trimmed.head_eq, trimEnd_eq_self trimmed.last_eq]

/-- Trimming makes a text trimmed. -/
theorem isTrimmed_trim (text : List Char) : IsTrimmed (trim text) where
  head_eq := head_trimEnd (head_trimStart text)
  last_eq := last_trimEnd (trimStart text)

/-! ## Blanks around a text -/

/-- Whether a text holds nothing but blanks. -/
def AllBlank (text : List Char) : Prop :=
  ∀ c ∈ text, isBlank c = true

instance (text : List Char) : Decidable (AllBlank text) :=
  List.decidableBAll (fun c => isBlank c = true) text

/-- A blank is no character with a meaning of its own. -/
theorem ne_of_isBlank {c : Char} (blank : isBlank c = true) : c ≠ '<' ∧ c ≠ ',' ∧ c ≠ '>' := by
  refine ⟨?_, ?_, ?_⟩ <;> (rintro rfl; revert blank; decide)

/-- Whether a text is a given one with blanks around it. -/
def IsPadded (core text : List Char) : Prop :=
  ∃ lead trail, AllBlank lead ∧ AllBlank trail ∧ text = lead ++ (core ++ trail)

/-- The empty text holds no other characters than blanks. -/
@[simp] theorem allBlank_nil : AllBlank [] :=
  List.forall_mem_nil _

/-- A text is itself with no blanks around it. -/
theorem IsPadded.refl (text : List Char) : IsPadded text text :=
  ⟨[], [], allBlank_nil, allBlank_nil, (List.append_nil text).symm⟩

/-- One more blank in front of a text. -/
theorem IsPadded.cons {core text : List Char} {c : Char} (blank : isBlank c = true)
    (padded : IsPadded core text) : IsPadded core (c :: text) := by
  obtain ⟨lead, trail, leadBlank, trailBlank, rfl⟩ := padded
  exact ⟨c :: lead, trail, List.forall_mem_cons.2 ⟨blank, leadBlank⟩, trailBlank, rfl⟩

/-- Blanks around blanks around a text are blanks around the text. -/
theorem IsPadded.trans {core middle text : List Char} (inner : IsPadded core middle)
    (outer : IsPadded middle text) : IsPadded core text := by
  obtain ⟨lead, trail, leadBlank, trailBlank, rfl⟩ := inner
  obtain ⟨front, behind, frontBlank, behindBlank, rfl⟩ := outer
  exact ⟨front ++ lead, trail ++ behind, List.forall_mem_append.2 ⟨frontBlank, leadBlank⟩,
    List.forall_mem_append.2 ⟨trailBlank, behindBlank⟩, by simp only [List.append_assoc]⟩

/-- A text is its trimmed text with blanks around it. -/
theorem isPadded_trim (text : List Char) : IsPadded (trim text) text := by
  obtain ⟨trail, whole, trailBlank⟩ := exists_eq_append_trim text
  exact ⟨text.takeWhile isBlank, trail, List.all_eq_true.1 List.all_takeWhile, trailBlank, whole⟩

/-- Blanks in front of a text are removed. -/
theorem trimStart_append {lead : List Char} (blank : AllBlank lead) (text : List Char) :
    trimStart (lead ++ text) = trimStart text :=
  List.dropWhile_append_of_pos blank

/-- Blanks behind a text are removed. -/
theorem trimEnd_append {trail : List Char} (blank : AllBlank trail) (text : List Char) :
    trimEnd (text ++ trail) = trimEnd text := by
  have reversed : AllBlank trail.reverse := fun c mem => blank c (List.mem_reverse.1 mem)
  rw [trimEnd, List.reverse_append]
  exact congrArg List.reverse (trimStart_append reversed text.reverse)

/-- Trimming removes the blanks around a trimmed text. -/
theorem trim_of_isPadded {core text : List Char} (trimmed : IsTrimmed core)
    (padded : IsPadded core text) : trim text = core := by
  obtain ⟨lead, trail, leadBlank, trailBlank, rfl⟩ := padded
  rw [trim, trimStart_append leadBlank]
  cases core with
  | nil =>
    -- nothing but the blanks behind is left
    rw [List.nil_append, ← List.append_nil trail, trimStart_append trailBlank]
    rfl
  | cons c rest =>
    have start : trimStart (c :: rest ++ trail) = c :: rest ++ trail :=
      trimStart_eq_self trimmed.head_eq
    rw [start, trimEnd_append trailBlank, trimEnd_eq_self trimmed.last_eq]

/-- Trimming a text gives another one exactly if this is trimmed and the text is it with blanks
around it. -/
theorem trim_eq_iff {core text : List Char} :
    trim text = core ↔ IsTrimmed core ∧ IsPadded core text := by
  constructor
  · rintro rfl
    exact ⟨isTrimmed_trim text, isPadded_trim text⟩
  · rintro ⟨trimmed, padded⟩
    exact trim_of_isPadded trimmed padded

/-- Nothing is left of a text exactly if it holds nothing but blanks. -/
theorem trim_eq_nil_iff {text : List Char} : trim text = [] ↔ AllBlank text := by
  rw [trim_eq_iff]
  constructor
  · rintro ⟨-, lead, trail, leadBlank, trailBlank, rfl⟩
    exact List.forall_mem_append.2 ⟨leadBlank, trailBlank⟩
  · intro blank
    exact ⟨⟨nofun, nofun⟩, text, [], blank, allBlank_nil, (List.append_nil text).symm⟩

/-- A text is trimmed exactly if trimming leaves it as it is. -/
theorem isTrimmed_iff {text : List Char} : IsTrimmed text ↔ trim text = text :=
  ⟨trim_eq_self, fun same => same ▸ isTrimmed_trim text⟩

instance (text : List Char) : Decidable (IsTrimmed text) :=
  decidable_of_iff _ isTrimmed_iff.symm

end GenericTypes
