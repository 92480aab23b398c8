import Mathlib.Data.List.TakeWhile
import GenericTypes.Signature
import GenericTypes.Proofs.Related
import GenericTypes.Proofs.Text.Trim

/-! # One layer of a signature

Which texts are taken apart, and into what. The arguments of a signature are found by a count of
open brackets: a piece between two commas is one whose own brackets match and whose commas are
inside them. `IsNestedFrom` says this by counting, for a number of brackets that are open in front
of a piece, and what the splitter does to a piece follows character by character. The base name is
checked for closing brackets and commas only where it stands alone. -/

namespace GenericTypes

namespace Signature

/-! ## Nested brackets -/

/-- Whether a text closes the brackets that are open, `depth` of them in front of it, and no more,
and has its commas inside brackets. -/
structure IsNestedFrom (depth : Nat) (text : List Char) : Prop where
  /-- No bracket is closed that was not opened. -/
  nested : ∀ front behind, text = front ++ behind → front.count '>' ≤ depth + front.count '<'
  /-- All brackets are closed. -/
  closed : text.count '>' = depth + text.count '<'
  /-- Where a comma stands, brackets are open. -/
  commas : ∀ front behind, text = front ++ ',' :: behind →
    front.count '>' < depth + front.count '<'

variable {depth inner : Nat} {text piece rest core : List Char} {c : Char}

/-- Nothing closes nothing. -/
theorem isNestedFrom_nil : IsNestedFrom depth [] ↔ depth = 0 := by
  constructor
  · intro nested
    exact nested.closed.symm
  · rintro rfl
    refine ⟨fun front behind whole => ?_, rfl, fun front behind whole => ?_⟩
    · rw [(List.append_eq_nil_iff.1 whole.symm).1]
      exact Nat.le_refl 0
    · exact absurd whole.symm (List.append_ne_nil_of_right_ne_nil _ (List.cons_ne_nil _ _))

/-- What a character opens and closes is counted, unless it closes what is not open. -/
theorem depthAfter_add_count (room : c = '>' → depth ≠ 0) (front : List Char) :
    depthAfter depth c + front.count '<' + (c :: front).count '>'
      = depth + (c :: front).count '<' + front.count '>' := by
  rw [depthAfter, List.count_cons, List.count_cons]
  by_cases opens : c = '<'
  · subst opens
    simp
    omega
  · by_cases closes : c = '>'
    · have := room closes
      subst closes
      simp
      omega
    · simp [opens, closes]

/-- A character needs an open bracket if it closes one or separates arguments. -/
theorem isNestedFrom_cons :
    IsNestedFrom depth (c :: rest)
      ↔ (c = '>' ∨ c = ',' → depth ≠ 0) ∧ IsNestedFrom (depthAfter depth c) rest := by
  constructor
  · intro nested
    have room : c = '>' ∨ c = ',' → depth ≠ 0 := by
      rintro (rfl | rfl)
      · have first := nested.nested ['>'] rest rfl
        intro none
        subst none
        simp at first
      · exact Nat.ne_of_gt (nested.commas [] rest rfl)
    have counts := depthAfter_add_count fun closes => room (.inl closes)
    refine ⟨room, fun front behind whole => ?_, ?_, fun front behind whole => ?_⟩
    · have := nested.nested (c :: front) behind (by rw [whole]; rfl)
      have := counts front
      omega
    · have := nested.closed
      have := counts rest
      omega
    · have := nested.commas (c :: front) behind (by rw [whole]; rfl)
      have := counts front
      omega
  · rintro ⟨room, nested⟩
    have counts := depthAfter_add_count fun closes => room (.inl closes)
    refine ⟨fun front behind whole => ?_, ?_, fun front behind whole => ?_⟩
    · cases front with
      | nil => exact Nat.zero_le _
      | cons d front =>
        obtain ⟨rfl, same⟩ := List.cons.inj whole
        have := nested.nested front behind same
        have := counts front
        omega
    · have := nested.closed
      have := counts rest
      omega
    · cases front with
      | nil =>
        obtain ⟨rfl, -⟩ := List.cons.inj whole
        exact Nat.pos_of_ne_zero (room (.inr rfl))
      | cons d front =>
        obtain ⟨rfl, same⟩ := List.cons.inj whole
        have := nested.commas front behind same
        have := counts front
        omega

/-- Open brackets around a piece stay open behind it. -/
theorem IsNestedFrom.append (nested : IsNestedFrom depth piece) (rests : IsNestedFrom inner rest) :
    IsNestedFrom (depth + inner) (piece ++ rest) := by
  induction piece generalizing depth with
  | nil =>
    rw [isNestedFrom_nil.1 nested, Nat.zero_add]
    exact rests
  | cons c piece ih =>
    rw [isNestedFrom_cons] at nested
    obtain ⟨room, nested⟩ := nested
    have after : depthAfter (depth + inner) c = depthAfter depth c + inner := by
      rw [depthAfter, depthAfter]
      by_cases closes : c = '>'
      · have := room (.inl closes)
        subst closes
        simp
        omega
      · simp only [closes, if_false]
        split
        · omega
        · rfl
    rw [List.cons_append, isNestedFrom_cons, after]
    exact ⟨fun marks => by have := room marks; omega, ih nested⟩

/-- A character without a meaning of its own changes nothing. -/
theorem isNestedFrom_cons_of_ne (noOpen : c ≠ '<') (noClose : c ≠ '>') (noComma : c ≠ ',') :
    IsNestedFrom depth (c :: rest) ↔ IsNestedFrom depth rest := by
  rw [isNestedFrom_cons, depthAfter, if_neg noOpen, if_neg noClose]
  exact and_iff_right fun marks => absurd marks (not_or.2 ⟨noClose, noComma⟩)

/-- Characters without a meaning of their own change nothing. -/
theorem isNestedFrom_append_of_forall (plain : ∀ c ∈ piece, c ≠ '<' ∧ c ≠ ',' ∧ c ≠ '>') :
    IsNestedFrom depth (piece ++ rest) ↔ IsNestedFrom depth rest := by
  induction piece with
  | nil => exact Iff.rfl
  | cons c piece ih =>
    rw [List.forall_mem_cons] at plain
    obtain ⟨noOpen, noComma, noClose⟩ := plain.1
    rw [List.cons_append, isNestedFrom_cons_of_ne noOpen noClose noComma]
    exact ih plain.2

/-- Characters without a meaning of their own behind a text change nothing. -/
theorem isNestedFrom_append_iff_of_forall (plain : ∀ c ∈ rest, c ≠ '<' ∧ c ≠ ',' ∧ c ≠ '>') :
    IsNestedFrom depth (core ++ rest) ↔ IsNestedFrom depth core := by
  induction core generalizing depth with
  | nil =>
    have behind : IsNestedFrom depth (rest ++ []) ↔ IsNestedFrom depth [] :=
      isNestedFrom_append_of_forall plain
    rwa [List.append_nil] at behind
  | cons c core ih => rw [List.cons_append, isNestedFrom_cons, isNestedFrom_cons, ih]

/-- Blanks around a text change nothing. -/
theorem isNestedFrom_iff_of_isPadded (padded : IsPadded core text) :
    IsNestedFrom depth text ↔ IsNestedFrom depth core := by
  obtain ⟨lead, trail, leadBlank, trailBlank, rfl⟩ := padded
  rw [isNestedFrom_append_of_forall fun c mem => ne_of_isBlank (leadBlank c mem),
    isNestedFrom_append_iff_of_forall fun c mem => ne_of_isBlank (trailBlank c mem)]

/-! ## Pieces -/

/-- Pieces with a comma between them. -/
def joined (pieces : List (List Char)) : List Char :=
  [','].intercalate pieces

@[simp] theorem joined_singleton (piece : List Char) : joined [piece] = piece :=
  List.intercalate_singleton

theorem joined_cons_cons (first second : List Char) (others : List (List Char)) :
    joined (first :: second :: others) = first ++ ',' :: joined (second :: others) := by
  rw [joined, List.intercalate_cons_cons, List.append_assoc]
  rfl

/-- A piece in front of others is followed by a comma. -/
theorem joined_cons {pieces : List (List Char)} (first : List Char) (others : pieces ≠ []) :
    joined (first :: pieces) = first ++ ',' :: joined pieces := by
  cases pieces with
  | nil => exact absurd rfl others
  | cons second pieces => exact joined_cons_cons first second pieces

/-- A character in front of the first piece is in front of all of them. -/
theorem joined_prependToFirst (c : Char) (pieces : List (List Char)) :
    joined (prependToFirst c pieces) = c :: joined pieces := by
  cases pieces with
  | nil => rfl
  | cons first others =>
    cases others with
    | nil => rw [prependToFirst, joined_singleton, joined_singleton]
    | cons second others =>
      rw [prependToFirst, joined_cons_cons, joined_cons_cons, List.cons_append]

/-- A text has at least one piece. -/
theorem piecesFrom_ne_nil (depth : Nat) (text : List Char) : piecesFrom depth text ≠ [] := by
  cases text with
  | nil => exact List.cons_ne_nil _ _
  | cons c rest =>
    rw [piecesFrom]
    split
    · exact List.cons_ne_nil _ _
    · unfold prependToFirst
      split <;> exact List.cons_ne_nil _ _

/-- A text is its pieces with a comma between them. -/
theorem joined_piecesFrom (depth : Nat) (text : List Char) :
    joined (piecesFrom depth text) = text := by
  induction text generalizing depth with
  | nil => rfl
  | cons c rest ih =>
    rw [piecesFrom]
    split
    · rename_i separates
      rw [joined_cons [] (piecesFrom_ne_nil 0 rest), ih, separates.1]
      rfl
    · rw [joined_prependToFirst, ih]

/-- In a text whose brackets match, the first piece closes what is open in front of it, and no
other piece leaves anything open or closes anything else. -/
theorem exists_piecesFrom_eq (balanced : balancedFrom depth text = true) :
    ∃ first others, piecesFrom depth text = first :: others ∧ IsNestedFrom depth first
      ∧ ∀ other ∈ others, IsNestedFrom 0 other := by
  induction text generalizing depth with
  | nil => exact ⟨[], [], rfl, isNestedFrom_nil.2 (beq_iff_eq.1 balanced), List.forall_mem_nil _⟩
  | cons c rest ih =>
    rw [balancedFrom, Bool.if_false_left, Bool.and_eq_true, Bool.not_eq_true',
      decide_eq_false_iff_not] at balanced
    obtain ⟨room, balanced⟩ := balanced
    obtain ⟨first, others, pieces, nested, each⟩ := ih balanced
    rw [piecesFrom]
    split
    · rename_i separates
      obtain ⟨rfl, rfl⟩ := separates
      -- the comma ends an empty piece, and no brackets are open behind it
      have after : depthAfter 0 ',' = 0 := rfl
      rw [after] at pieces nested
      refine ⟨[], first :: others, by rw [pieces], isNestedFrom_nil.2 rfl, ?_⟩
      exact List.forall_mem_cons.2 ⟨nested, each⟩
    · rename_i inside
      refine ⟨c :: first, others, by rw [pieces, prependToFirst], ?_, each⟩
      rw [isNestedFrom_cons]
      refine ⟨?_, nested⟩
      rintro (closes | separates)
      · exact fun none => room ⟨closes, none⟩
      · exact fun none => inside ⟨separates, none⟩

/-- The pieces of a text whose brackets match are nested. -/
theorem isNestedFrom_of_mem_piecesFrom (balances : balanced text = true)
    (mem : piece ∈ piecesFrom 0 text) : IsNestedFrom 0 piece := by
  obtain ⟨first, others, pieces, nested, each⟩ := exists_piecesFrom_eq balances
  rw [pieces] at mem
  rcases List.mem_cons.1 mem with rfl | mem
  · exact nested
  · exact each piece mem

/-- Brackets match behind a nested piece if they match without it. -/
theorem balancedFrom_append (nested : IsNestedFrom depth piece) (rest : List Char) :
    balancedFrom depth (piece ++ rest) = balancedFrom 0 rest := by
  induction piece generalizing depth with
  | nil =>
    rw [isNestedFrom_nil.1 nested]
    rfl
  | cons c piece ih =>
    obtain ⟨room, nested⟩ := isNestedFrom_cons.1 nested
    rw [List.cons_append, balancedFrom, if_neg fun closes => room (.inl closes.1) closes.2]
    exact ih nested

/-- A comma behind a nested piece ends it. -/
theorem piecesFrom_append_comma (nested : IsNestedFrom depth piece) (rest : List Char) :
    piecesFrom depth (piece ++ ',' :: rest) = piece :: piecesFrom 0 rest := by
  induction piece generalizing depth with
  | nil => rw [isNestedFrom_nil.1 nested, List.nil_append, piecesFrom, if_pos ⟨rfl, rfl⟩]
  | cons c piece ih =>
    obtain ⟨room, nested⟩ := isNestedFrom_cons.1 nested
    rw [List.cons_append, piecesFrom, if_neg fun separates => room (.inr separates.1) separates.2,
      ih nested, prependToFirst]

/-- A nested text is one piece. -/
theorem piecesFrom_eq_singleton (nested : IsNestedFrom depth piece) :
    piecesFrom depth piece = [piece] := by
  induction piece generalizing depth with
  | nil => rfl
  | cons c piece ih =>
    obtain ⟨room, nested⟩ := isNestedFrom_cons.1 nested
    rw [piecesFrom, if_neg fun separates => room (.inr separates.1) separates.2, ih nested,
      prependToFirst]

/-- Nested pieces with a comma between them are taken apart into these pieces. -/
theorem piecesFrom_joined {pieces : List (List Char)} (nonempty : pieces ≠ [])
    (nested : ∀ piece ∈ pieces, IsNestedFrom 0 piece) : piecesFrom 0 (joined pieces) = pieces := by
  induction pieces with
  | nil => exact absurd rfl nonempty
  | cons first others ih =>
    rw [List.forall_mem_cons] at nested
    cases others with
    | nil =>
      rw [joined_singleton]
      exact piecesFrom_eq_singleton nested.1
    | cons second others =>
      rw [joined_cons_cons, piecesFrom_append_comma nested.1, ih (List.cons_ne_nil _ _) nested.2]

/-- In nested pieces with a comma between them the brackets match. -/
theorem balanced_joined {pieces : List (List Char)}
    (nested : ∀ piece ∈ pieces, IsNestedFrom 0 piece) : balanced (joined pieces) = true := by
  induction pieces with
  | nil => rfl
  | cons first others ih =>
    rw [List.forall_mem_cons] at nested
    cases others with
    | nil =>
      have alone := balancedFrom_append nested.1 []
      rw [List.append_nil] at alone
      rw [joined_singleton]
      exact alone
    | cons second others =>
      rw [joined_cons_cons, balanced, balancedFrom_append nested.1]
      exact ih nested.2

/-! ## Layers -/

/-- Whether a text can be an argument: it is there, it is trimmed, and it is nested by itself. -/
structure IsArgument (text : List Char) : Prop where
  /-- Something stands in the place of the argument. -/
  ne_nil : text ≠ []
  /-- No blanks are left around it. -/
  trimmed : IsTrimmed text
  /-- Its brackets match, and its commas are inside them. -/
  nested : IsNestedFrom 0 text

/-- Whether a text is a base name alone, or a base name followed by arguments between brackets,
with blanks around the base name and the arguments and behind the brackets. -/
inductive IsSpelled (base : List Char) : List (List Char) → List Char → Prop
  /-- A base name alone. -/
  | alone {text : List Char} (padded : IsPadded base text) : IsSpelled base [] text
  /-- A base name and its arguments, as many pieces between commas. -/
  | applied {front trail : List Char} {arguments pieces : List (List Char)}
      (padded : IsPadded base front) (nonempty : arguments ≠ [])
      (each : List.Forall₂ IsPadded arguments pieces) (blank : AllBlank trail) :
      IsSpelled base arguments (front ++ '<' :: (joined pieces ++ '>' :: trail))

/-- Whether a text is a layer of a signature with a base name and arguments. A base name that stands
alone holds no marks at all, one with arguments no opening bracket. -/
structure IsLayer (text base : List Char) (arguments : List (List Char)) : Prop where
  /-- There is a base name. -/
  base_ne_nil : base ≠ []
  /-- No blanks are left around it. -/
  base_trimmed : IsTrimmed base
  /-- It ends where the first bracket opens. -/
  noOpen : '<' ∉ base
  /-- By itself it holds neither a closing bracket nor a comma. -/
  plain : arguments = [] → '>' ∉ base ∧ ',' ∉ base
  /-- Each argument can be one. -/
  isArgument : ∀ argument ∈ arguments, IsArgument argument
  /-- The text is made of these parts and of blanks. -/
  spelled : IsSpelled base arguments text

variable {base before after : List Char} {arguments pieces : List (List Char)}

/-- Trimming keeps what an argument needs of a piece. -/
theorem isArgument_trim (nested : IsNestedFrom 0 piece) (nonempty : trim piece ≠ []) :
    IsArgument (trim piece) :=
  ⟨nonempty, isTrimmed_trim piece, (isNestedFrom_iff_of_isPadded (isPadded_trim piece)).1 nested⟩

/-- Nested texts with blanks around them are nested pieces. -/
theorem isNestedFrom_of_forall₂ (nested : ∀ argument ∈ arguments, IsNestedFrom 0 argument)
    (each : List.Forall₂ IsPadded arguments pieces) : ∀ piece ∈ pieces, IsNestedFrom 0 piece := by
  intro piece mem
  obtain ⟨argument, inside, padded⟩ := exists_mem_of_forall₂ each mem
  exact (isNestedFrom_iff_of_isPadded padded).2 (nested argument inside)

/-- Trimming removes the blanks around arguments. -/
theorem map_trim_of_arguments (isArgument : ∀ argument ∈ arguments, IsArgument argument)
    (each : List.Forall₂ IsPadded arguments pieces) : pieces.map trim = arguments := by
  induction each with
  | nil => rfl
  | cons padded each ih =>
    rw [List.forall_mem_cons] at isArgument
    rw [List.map_cons, trim_of_isPadded isArgument.1.trimmed padded, ih isArgument.2]

/-- Pieces that are not all blank are not all blank together. -/
theorem trim_joined_ne_nil (nonempty : pieces ≠ []) (each : ∀ piece ∈ pieces, trim piece ≠ []) :
    trim (joined pieces) ≠ [] := by
  obtain ⟨first, others, rfl⟩ := List.exists_cons_of_ne_nil nonempty
  rw [List.forall_mem_cons] at each
  intro none
  refine each.1 (trim_eq_nil_iff.2 fun c mem => trim_eq_nil_iff.1 none c ?_)
  cases others with
  | nil => rwa [joined_singleton]
  | cons second others =>
    rw [joined_cons_cons]
    exact List.mem_append_left _ mem

/-! ### The parts of the splitter -/

/-- A text without an opening bracket is taken apart as a base name alone. -/
theorem cut?_of_notMem (noOpen : '<' ∉ trim text) : cut? text = cutPlain? (trim text) := by
  have none : (trim text).dropWhile (· != '<') = [] := by
    rw [List.dropWhile_eq_nil_iff]
    exact fun c mem => bne_iff_ne.2 fun opens => noOpen (opens ▸ mem)
  rw [cut?, none]

/-- A text with an opening bracket is taken apart at the first one. -/
theorem cut?_of_trim_eq (noOpen : '<' ∉ before) (whole : trim text = before ++ '<' :: after) :
    cut? text = cutApplied? before after := by
  have plain : ∀ c ∈ before, (c != '<') = true :=
    fun c mem => bne_iff_ne.2 fun opens => noOpen (opens ▸ mem)
  have front : (trim text).takeWhile (· != '<') = before := by
    rw [whole, List.takeWhile_append_of_pos plain]
    exact List.append_nil before
  have behind : (trim text).dropWhile (· != '<') = '<' :: after := by
    rw [whole, List.dropWhile_append_of_pos plain]
    rfl
  rw [cut?, front, behind]

/-- A base name alone is any text that is there and holds neither a closing bracket nor a comma. -/
theorem cutPlain?_eq_some_iff :
    cutPlain? text = some (base, arguments)
      ↔ (text ≠ [] ∧ '>' ∉ text ∧ ',' ∉ text) ∧ base = text ∧ arguments = [] := by
  have marks : (text.isEmpty || text.any fun c => c == '>' || c == ',') = false
      ↔ text ≠ [] ∧ '>' ∉ text ∧ ',' ∉ text := by
    simp only [Bool.or_eq_false_iff, List.isEmpty_eq_false_iff, List.any_eq_false,
      beq_eq_false_iff_ne, Bool.not_eq_true, ne_eq]
    refine and_congr_right fun _ => ⟨fun free => ?_, fun free c mem => ?_⟩
    · exact ⟨fun mem => (free _ mem).1 rfl, fun mem => (free _ mem).2 rfl⟩
    · exact ⟨fun closes => free.1 (closes ▸ mem), fun separates => free.2 (separates ▸ mem)⟩
  rw [cutPlain?, ← marks]
  split
  · rename_i marked
    rw [marked]
    simp
  · rename_i free
    rw [eq_false_of_ne_true free]
    simp [eq_comm]

/-- Behind the first opening bracket there are arguments and a closing bracket at the end. -/
theorem cutApplied?_eq_some_iff :
    cutApplied? before after = some (base, arguments)
      ↔ ∃ middle, after = middle ++ ['>'] ∧ trim before ≠ [] ∧ trim middle ≠ []
        ∧ balanced middle = true ∧ (∀ argument ∈ cutArguments middle, argument ≠ [])
        ∧ base = trim before ∧ arguments = cutArguments middle := by
  rw [cutApplied?]
  constructor
  · intro cut
    split at cut
    · rename_i accepted
      simp only [Bool.and_eq_true, beq_iff_eq, Bool.not_eq_true', List.isEmpty_eq_false_iff,
        List.all_eq_true] at accepted
      obtain ⟨⟨⟨⟨last, named⟩, filled⟩, balances⟩, each⟩ := accepted
      cases cut
      refine ⟨after.dropLast, ?_, named, filled, balances, each, rfl, rfl⟩
      exact (List.dropLast_append_getLast? _ last).symm
    · cases cut
  · rintro ⟨middle, rfl, named, filled, balances, each, rfl, rfl⟩
    rw [List.dropLast_concat, if_pos]
    simp only [Bool.and_eq_true, beq_iff_eq, Bool.not_eq_true', List.isEmpty_eq_false_iff,
      List.all_eq_true]
    exact ⟨⟨⟨⟨List.getLast?_concat, named⟩, filled⟩, balances⟩, each⟩

/-- What is taken apart is a layer. -/
theorem isLayer_of_cut? (cut : cut? text = some (base, arguments)) :
    IsLayer text base arguments := by
  by_cases opens : '<' ∈ trim text
  · obtain ⟨before, after, whole, noOpen⟩ := List.eq_append_cons_of_mem opens
    rw [cut?_of_trim_eq noOpen whole, cutApplied?_eq_some_iff] at cut
    obtain ⟨middle, rfl, named, filled, balances, each, rfl, rfl⟩ := cut
    have pieces := piecesFrom_ne_nil 0 middle
    refine ⟨named, isTrimmed_trim before, ?_, fun none => ?_, fun argument mem => ?_, ?_⟩
    · -- the base name is the middle of what stands in front of the bracket
      obtain ⟨lead, trail, -, -, padded⟩ := isPadded_trim before
      rw [padded] at noOpen
      exact fun mem => noOpen (List.mem_append_right _ (List.mem_append_left _ mem))
    · exact absurd (List.map_eq_nil_iff.1 none) pieces
    · obtain ⟨piece, member, rfl⟩ := List.mem_map.1 mem
      exact isArgument_trim (isNestedFrom_of_mem_piecesFrom balances member) (each _ mem)
    · obtain ⟨lead, trail, leadBlank, trailBlank, padded⟩ := isPadded_trim text
      have front : IsPadded (trim before) (lead ++ before) :=
        (isPadded_trim before).trans
          ⟨lead, [], leadBlank, allBlank_nil, by rw [List.append_nil]⟩
      have trims : List.Forall₂ IsPadded ((piecesFrom 0 middle).map trim) (piecesFrom 0 middle) :=
        List.forall₂_map_left_iff.2 (List.forall₂_same.2 fun piece _ => isPadded_trim piece)
      have spelled := IsSpelled.applied front
        (fun none => pieces (List.map_eq_nil_iff.1 none)) trims trailBlank
      rw [joined_piecesFrom] at spelled
      rw [padded, whole]
      show IsSpelled _ ((piecesFrom 0 middle).map trim) _
      simpa using spelled
  · rw [cut?_of_notMem opens, cutPlain?_eq_some_iff] at cut
    obtain ⟨⟨named, noClose, noComma⟩, rfl, rfl⟩ := cut
    exact ⟨named, isTrimmed_trim text, opens, fun _ => ⟨noClose, noComma⟩, List.forall_mem_nil _,
      .alone (isPadded_trim text)⟩

/-- A layer is taken apart. -/
theorem cut?_of_isLayer (layer : IsLayer text base arguments) :
    cut? text = some (base, arguments) := by
  obtain ⟨named, trimmed, noOpen, plain, isArgument, spelled⟩ := layer
  cases spelled with
  | alone padded =>
    have whole := trim_of_isPadded trimmed padded
    rw [cut?_of_notMem (whole ▸ noOpen), cutPlain?_eq_some_iff, whole]
    exact ⟨⟨named, plain rfl⟩, rfl, rfl⟩
  | @applied front trail _ pieces padded nonempty each blank =>
    have nested :=
      isNestedFrom_of_forall₂ (fun argument mem => (isArgument argument mem).nested) each
    have trims := map_trim_of_arguments isArgument each
    have some : pieces ≠ [] := by
      rintro rfl
      exact nonempty trims.symm
    have cuts : cutArguments (joined pieces) = arguments := by
      rw [cutArguments, piecesFrom_joined some nested, trims]
    have filled : ∀ piece ∈ pieces, trim piece ≠ [] := by
      intro piece mem
      rw [← trims] at isArgument
      exact (isArgument _ (List.mem_map_of_mem mem)).ne_nil
    obtain ⟨lead, gap, leadBlank, gapBlank, rfl⟩ := padded
    -- without the blanks at the ends the text starts with the base name and ends with a bracket
    have whole : trim (lead ++ (base ++ gap) ++ '<' :: (joined pieces ++ '>' :: trail))
        = base ++ gap ++ '<' :: (joined pieces ++ ['>']) := by
      refine trim_of_isPadded ⟨fun c first => trimmed.head_eq c ?_, fun c last => ?_⟩
        ⟨lead, trail, leadBlank, blank, by simp⟩
      · obtain ⟨d, rest, rfl⟩ := List.exists_cons_of_ne_nil named
        exact first
      · rw [← List.cons_append, ← List.append_assoc, List.getLast?_concat] at last
        cases last
        decide
    have bare : '<' ∉ base ++ gap := by
      rw [List.mem_append, not_or]
      exact ⟨noOpen, fun mem => (ne_of_isBlank (gapBlank _ mem)).1 rfl⟩
    have name : trim (base ++ gap) = base :=
      trim_of_isPadded trimmed ⟨[], gap, allBlank_nil, gapBlank, rfl⟩
    rw [cut?_of_trim_eq bare whole, cutApplied?_eq_some_iff]
    exact ⟨joined pieces, rfl, name.symm ▸ named, trim_joined_ne_nil some filled,
      balanced_joined nested, cuts.symm ▸ fun argument mem => (isArgument argument mem).ne_nil,
      name.symm, cuts.symm⟩

/-- A text is taken apart into a base name and arguments exactly if it is a layer with these. -/
theorem cut?_eq_some_iff : cut? text = some (base, arguments) ↔ IsLayer text base arguments :=
  ⟨isLayer_of_cut?, cut?_of_isLayer⟩

/-- Blanks around a text do not matter to what is taken apart. -/
theorem cut?_trim (text : List Char) : cut? (trim text) = cut? text := by
  rw [cut?, cut?, trim_eq_self (isTrimmed_trim text)]

/-- A layer stays one without the blanks around it. -/
theorem IsLayer.trim (layer : IsLayer text base arguments) :
    IsLayer (trim text) base arguments :=
  isLayer_of_cut? ((cut?_trim text).trans (cut?_of_isLayer layer))

/-- A text that is taken apart at every layer is a layer whose arguments are. -/
theorem exists_isLayer_of_ofChars {name : String} {children : List Signature}
    (same : ofChars text = applied name children) :
    ∃ arguments, IsLayer text name.toList arguments ∧ children = arguments.map ofChars := by
  cases cut : cut? text with
  | none =>
    rw [ofChars] at same
    split at same
    · cases same
    · rename_i found
      cases cut.symm.trans found
  | some parts =>
    obtain ⟨base, arguments⟩ := parts
    cases (ofChars_of_cut? cut).symm.trans same
    refine ⟨arguments, ?_, rfl⟩
    rw [String.toList_ofList]
    exact isLayer_of_cut? cut

/-! ## Texts -/

/-- **What is taken apart, and into what.** The text of a signature has a base name and arguments
exactly if it is a layer with these: the base name is there, is trimmed and holds no opening
bracket; each argument is there, is trimmed, has matching brackets and holds commas inside them
only; and the text is made of these parts, with nothing but blanks around the base name, around the
arguments and at the end. A base name that stands alone holds no closing bracket and no comma
either; one with arguments may. -/
theorem split?_eq_some_iff {text base : String} {arguments : List String} :
    split? text = some (base, arguments)
      ↔ IsLayer text.toList base.toList (arguments.map String.toList) := by
  rw [← cut?_eq_some_iff, split?, Option.map_eq_some_iff]
  constructor
  · rintro ⟨⟨name, parts⟩, cut, same⟩
    cases same
    rw [cut, String.toList_ofList, List.map_map]
    simp [Function.comp_def]
  · intro cut
    refine ⟨_, cut, ?_⟩
    simp [Function.comp_def]

/-- A closing bracket in front of the first opening one is taken for a part of the base name. -/
theorem split?_closing_base :
    split? "a>b<c>" = some ("a>b", ["c"]) ∧ '>' ∈ "a>b".toList := by
  decide

end Signature

end GenericTypes
