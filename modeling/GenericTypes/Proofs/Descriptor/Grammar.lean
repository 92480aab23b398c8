import Mathlib.Data.List.Induction
import GenericTypes.Proofs.Descriptor.Canonical

/-! # The grammar of texts

A text lists items, separated by commas with at most one blank behind each. An item is a name, or a
name with a list in brackets behind it. No more brackets may be open at once than a limit says.

Reading from left to right, all that matters of the front of a text is how many brackets are open
and what stands at its end: its `Outline`. `isViable_iff` says that the front of a text can be
completed exactly if it has an outline, and `isItemList_iff` which outlines are those of whole
texts. Going to the right, an outline is kept up; going to the left, `Opens` takes the front of a
text apart along its open brackets. -/

namespace GenericTypes

mutual

/-- Whether a text is an item inside which so many brackets may be open at once. -/
inductive IsItem : Nat → List Char → Prop
  /-- A name. -/
  | name {limit : Nat} {name : List Char} (isName : IsName name) : IsItem limit name
  /-- A name and a list in brackets. -/
  | applied {limit : Nat} {name list : List Char} (isName : IsName name)
      (inside : IsItemList limit list) : IsItem (limit + 1) (name ++ '<' :: (list ++ ['>']))

/-- Whether a text is a list of items inside which so many brackets may be open at once. -/
inductive IsItemList : Nat → List Char → Prop
  /-- One item. -/
  | single {limit : Nat} {item : List Char} (isItem : IsItem limit item) : IsItemList limit item
  /-- An item, a comma with one blank or none, and a list. -/
  | cons {limit : Nat} {item blanks list : List Char} (isItem : IsItem limit item)
      (few : blanks = [] ∨ ∃ b, isBlank b = true ∧ blanks = [b]) (rest : IsItemList limit list) :
      IsItemList limit (item ++ ',' :: (blanks ++ list))

end

/-- Whether a text is the front of a list of items. -/
def IsViable (limit : Nat) (text : List Char) : Prop :=
  ∃ behind, IsItemList limit (text ++ behind)

/-! ## Outlines -/

/-- What stands at the end of the front of a text. -/
inductive Mark
  /-- Nothing yet, an opening bracket, or a comma with its blank. -/
  | fresh
  /-- A character of a name. -/
  | letter
  /-- A closing bracket. -/
  | closed
  /-- A comma. -/
  | separated
  deriving DecidableEq, Repr

/-- Whether an item can start behind a mark. -/
def Mark.isStart : Mark → Bool
  | fresh => true
  | separated => true
  | _ => false

/-- Whether a mark ends an item. -/
def Mark.isEnd : Mark → Bool
  | letter => true
  | closed => true
  | _ => false

/-- What matters of the front of a text. -/
structure Outline where
  /-- How many brackets are open. -/
  depth : Nat := 0
  /-- What stands at the end. -/
  mark : Mark := .fresh
  deriving DecidableEq, Repr

namespace Outline

/-- The outline with one more character, unless this character cannot stand there. -/
def step? (limit : Nat) (outline : Outline) (c : Char) : Option Outline :=
  if c = '<' then
    if outline.mark = .letter ∧ outline.depth < limit then some ⟨outline.depth + 1, .fresh⟩
    else none
  else if c = ',' then
    if outline.mark.isEnd then some ⟨outline.depth, .separated⟩ else none
  else if c = '>' then
    if outline.mark.isEnd ∧ outline.depth ≠ 0 then some ⟨outline.depth - 1, .closed⟩ else none
  else if isBlank c then
    if outline.mark = .separated then some ⟨outline.depth, .fresh⟩ else none
  else if outline.mark = .closed then none
  else some ⟨outline.depth, .letter⟩

/-- The outline with more characters. -/
def run? (limit : Nat) (outline : Outline) (text : List Char) : Option Outline :=
  text.foldlM (step? limit) outline

variable {limit : Nat} {outline after : Outline} {text rest : List Char} {c : Char}

/-- No more characters change nothing. -/
@[simp] theorem run?_nil (limit : Nat) (outline : Outline) :
    outline.run? limit [] = some outline := rfl

/-- The first character comes before the others. -/
@[simp] theorem run?_cons (limit : Nat) (outline : Outline) (c : Char) (text : List Char) :
    outline.run? limit (c :: text)
      = (outline.step? limit c).bind fun next => next.run? limit text := rfl

/-- One text comes before another one. -/
theorem run?_append (limit : Nat) (outline : Outline) (text rest : List Char) :
    outline.run? limit (text ++ rest)
      = (outline.run? limit text).bind fun next => next.run? limit rest :=
  List.foldlM_append

/-! ### Single characters -/

/-- An opening bracket needs a name in front of it and room. -/
theorem step?_open (limit : Nat) (outline : Outline) :
    outline.step? limit '<'
      = if outline.mark = .letter ∧ outline.depth < limit then some ⟨outline.depth + 1, .fresh⟩
        else none := rfl

/-- A comma needs an item in front of it. -/
theorem step?_comma (limit : Nat) (outline : Outline) :
    outline.step? limit ','
      = if outline.mark.isEnd then some ⟨outline.depth, .separated⟩ else none := rfl

/-- A closing bracket needs an item in front of it and brackets that are open. -/
theorem step?_close (limit : Nat) (outline : Outline) :
    outline.step? limit '>'
      = if outline.mark.isEnd ∧ outline.depth ≠ 0 then some ⟨outline.depth - 1, .closed⟩
        else none := rfl

/-- A blank needs a comma in front of it. -/
theorem step?_blank (limit : Nat) (outline : Outline) (blank : isBlank c = true) :
    outline.step? limit c
      = if outline.mark = .separated then some ⟨outline.depth, .fresh⟩ else none := by
  have different : c ≠ '<' ∧ c ≠ ',' ∧ c ≠ '>' := by
    refine ⟨?_, ?_, ?_⟩ <;> (rintro rfl; revert blank; decide)
  rw [step?, if_neg different.1, if_neg different.2.1, if_neg different.2.2, if_pos blank]

/-- A character of a name stands anywhere but behind a closing bracket. -/
theorem step?_letter (limit : Nat) (outline : Outline) (isName : IsNameChar c) :
    outline.step? limit c
      = if outline.mark = .closed then none else some ⟨outline.depth, .letter⟩ := by
  obtain ⟨noOpen, noComma, noClose, noBlank⟩ := isName
  rw [step?, if_neg noOpen, if_neg noComma, if_neg noClose, noBlank, if_neg Bool.false_ne_true]

/-! ### From left to right -/

/-- More characters of a name leave a name. -/
theorem run?_letters {depth : Nat} (letters : ∀ c ∈ text, IsNameChar c) :
    run? limit ⟨depth, .letter⟩ text = some ⟨depth, .letter⟩ := by
  induction text with
  | nil => rfl
  | cons c text ih =>
    rw [List.forall_mem_cons] at letters
    rw [run?_cons, step?_letter limit _ letters.1]
    exact ih letters.2

/-- A name leaves a name where an item can start. -/
theorem run?_name (isName : IsName text) (start : outline.mark.isStart = true) :
    outline.run? limit text = some ⟨outline.depth, .letter⟩ := by
  obtain ⟨nonempty, letters⟩ := isName
  cases text with
  | nil => exact absurd rfl nonempty
  | cons c text =>
    rw [List.forall_mem_cons] at letters
    have other : outline.mark ≠ .closed := by
      intro closed
      rw [closed] at start
      cases start
    rw [run?_cons, step?_letter limit _ letters.1, if_neg other]
    exact run?_letters letters.2

/-- One blank or none leads from a comma to where an item can start. -/
theorem exists_run?_blanks (limit depth : Nat) {blanks : List Char}
    (few : blanks = [] ∨ ∃ b, isBlank b = true ∧ blanks = [b]) :
    ∃ mark : Mark, mark.isStart = true
      ∧ run? limit ⟨depth, .separated⟩ blanks = some ⟨depth, mark⟩ := by
  rcases few with rfl | ⟨b, blank, rfl⟩
  · exact ⟨.separated, rfl, rfl⟩
  · refine ⟨.fresh, rfl, ?_⟩
    rw [run?_cons, step?_blank limit _ blank]
    rfl

end Outline

open Outline

mutual

/-- An item leads from where one can start to where one ends, inside the same brackets. -/
theorem IsItem.exists_run? {limit level depth : Nat} {mark : Mark} {text : List Char}
    (isItem : IsItem level text) (start : mark.isStart = true) (room : depth + level ≤ limit) :
    ∃ last : Mark, last.isEnd = true ∧ run? limit ⟨depth, mark⟩ text = some ⟨depth, last⟩ := by
  match isItem with
  | .name isName => exact ⟨.letter, rfl, run?_name isName start⟩
  | .applied isName inside =>
    have inLimit : depth < limit := by omega
    have fresh : Mark.isStart .fresh = true := rfl
    obtain ⟨last, ends, ran⟩ := inside.exists_run? fresh (by omega : depth + 1 + _ ≤ limit)
    refine ⟨.closed, rfl, ?_⟩
    rw [run?_append, run?_name isName start, Option.bind_some, run?_cons, step?_open,
      if_pos ⟨rfl, inLimit⟩, Option.bind_some, run?_append, ran, Option.bind_some, run?_cons,
      step?_close, if_pos ⟨ends, Nat.succ_ne_zero depth⟩]
    rfl

/-- A list of items leads from where an item can start to where one ends. -/
theorem IsItemList.exists_run? {limit level depth : Nat} {mark : Mark} {text : List Char}
    (isList : IsItemList level text) (start : mark.isStart = true)
    (room : depth + level ≤ limit) :
    ∃ last : Mark, last.isEnd = true ∧ run? limit ⟨depth, mark⟩ text = some ⟨depth, last⟩ := by
  match isList with
  | .single isItem => exact isItem.exists_run? start room
  | .cons isItem few rest =>
    obtain ⟨first, ends, ran⟩ := isItem.exists_run? start room
    obtain ⟨next, again, blanks⟩ := exists_run?_blanks limit depth few
    obtain ⟨last, lastEnds, others⟩ := rest.exists_run? again room
    refine ⟨last, lastEnds, ?_⟩
    rw [run?_append, ran, Option.bind_some, run?_cons, step?_comma, if_pos ends, Option.bind_some,
      run?_append, blanks, Option.bind_some, others]

end

/-! ### From right to left -/

variable {limit depth : Nat} {text list : List Char}

/-- How the front of a text is made up behind which an item can start, along the brackets that are
open in it. -/
inductive Opens (limit : Nat) : Nat → List Char → Prop
  /-- Nothing stands in front of the first item. -/
  | start : Opens limit 0 []
  /-- A name and an opening bracket. -/
  | bracket {depth : Nat} {text name : List Char} (opens : Opens limit depth text)
      (isName : IsName name) (room : depth < limit) :
      Opens limit (depth + 1) (text ++ name ++ ['<'])
  /-- An item and a comma, with one blank or none. -/
  | comma {depth : Nat} {text item blanks : List Char} (opens : Opens limit depth text)
      (isItem : IsItem (limit - depth) item)
      (few : blanks = [] ∨ ∃ b, isBlank b = true ∧ blanks = [b]) :
      Opens limit depth (text ++ item ++ ',' :: blanks)

/-- A list inside open brackets makes up an item when they are closed. -/
theorem Opens.exists_isItem (opens : Opens limit (depth + 1) text)
    (isList : IsItemList (limit - (depth + 1)) list) :
    ∃ front item, text ++ list ++ ['>'] = front ++ item ∧ Opens limit depth front
      ∧ IsItem (limit - depth) item := by
  generalize level : depth + 1 = inner at opens isList
  induction opens generalizing list with
  | start => cases level
  | @bracket outer front name opens isName room =>
    obtain rfl : depth = outer := Nat.succ.inj level
    have item : IsItem (limit - (depth + 1) + 1) (name ++ '<' :: (list ++ ['>'])) :=
      .applied isName isList
    have room : limit - (depth + 1) + 1 = limit - depth := by omega
    rw [room] at item
    exact ⟨front, _, by simp, opens, item⟩
  | @comma outer front item blanks opens isItem few ih =>
    -- the item in front of the comma belongs to the list
    obtain ⟨start, whole, same, opens, isWhole⟩ := ih level (.cons isItem few isList)
    refine ⟨start, whole, ?_, opens, isWhole⟩
    rw [← same]
    simp

/-- A list inside open brackets makes up a whole text when all of them are closed. -/
theorem Opens.isItemList (opens : Opens limit depth text)
    (isList : IsItemList (limit - depth) list) :
    IsItemList limit (text ++ list ++ List.replicate depth '>') := by
  induction opens generalizing list with
  | start => simpa using isList
  | @bracket depth front name opens isName room ih =>
    have item : IsItem (limit - (depth + 1) + 1) (name ++ '<' :: (list ++ ['>'])) :=
      .applied isName isList
    have level : limit - (depth + 1) + 1 = limit - depth := by omega
    rw [level] at item
    have whole := ih (.single item)
    rw [List.replicate_succ]
    simpa using whole
  | comma opens isItem few ih =>
    have whole := ih (.cons isItem few isList)
    simpa using whole

/-- What the outline of the front of a text says about it. -/
structure Outline.Fits (limit : Nat) (outline : Outline) (text : List Char) : Prop where
  /-- An item can start, if the mark says so. -/
  opens : outline.mark.isStart = true → Opens limit outline.depth text
  /-- An item ends, if the mark says so. -/
  item : outline.mark.isEnd = true → ∃ front item, text = front ++ item
    ∧ Opens limit outline.depth front ∧ IsItem (limit - outline.depth) item
  /-- This item is a name, if the mark says so. -/
  name : outline.mark = .letter → ∃ front name, text = front ++ name
    ∧ Opens limit outline.depth front ∧ IsName name
  /-- A comma may have a blank behind it, if the mark says so. -/
  comma : outline.mark = .separated → ∃ front item, text = front ++ item ++ [',']
    ∧ Opens limit outline.depth front ∧ IsItem (limit - outline.depth) item

namespace Outline

variable {outline after : Outline} {c : Char}

/-- Where an item starts, the outline says nothing else. -/
theorem fits_fresh (opens : Opens limit depth text) : Fits limit ⟨depth, .fresh⟩ text :=
  ⟨fun _ => opens, nofun, nofun, nofun⟩

/-- Where a name ends, an item does. -/
theorem fits_letter {front name : List Char} (opens : Opens limit depth front)
    (isName : IsName name) : Fits limit ⟨depth, .letter⟩ (front ++ name) :=
  ⟨nofun, fun _ => ⟨front, name, rfl, opens, .name isName⟩,
    fun _ => ⟨front, name, rfl, opens, isName⟩, nofun⟩

/-- Where brackets close, an item ends. -/
theorem fits_closed {front item : List Char} (opens : Opens limit depth front)
    (isItem : IsItem (limit - depth) item) : Fits limit ⟨depth, .closed⟩ (front ++ item) :=
  ⟨nofun, fun _ => ⟨front, item, rfl, opens, isItem⟩, nofun, nofun⟩

/-- Behind a comma an item starts, with a blank or without. -/
theorem fits_separated {front item : List Char} (opens : Opens limit depth front)
    (isItem : IsItem (limit - depth) item) :
    Fits limit ⟨depth, .separated⟩ (front ++ item ++ [',']) :=
  ⟨fun _ => .comma opens isItem (.inl rfl), nofun, nofun,
    fun _ => ⟨front, item, rfl, opens, isItem⟩⟩

/-- An outline stays true with one more character. -/
theorem Fits.step (fits : Fits limit outline text)
    (stepped : outline.step? limit c = some after) : Fits limit after (text ++ [c]) := by
  obtain ⟨depth, mark⟩ := outline
  by_cases isOpen : c = '<'
  · subst isOpen
    rw [step?_open, Option.ite_none_right_eq_some] at stepped
    obtain ⟨⟨letter, room⟩, same⟩ := stepped
    cases same
    obtain ⟨front, name, rfl, opens, isName⟩ := fits.name letter
    exact fits_fresh (.bracket opens isName room)
  by_cases isComma : c = ','
  · subst isComma
    rw [step?_comma, Option.ite_none_right_eq_some] at stepped
    obtain ⟨ends, same⟩ := stepped
    cases same
    obtain ⟨front, item, rfl, opens, isItem⟩ := fits.item ends
    exact fits_separated opens isItem
  by_cases isClose : c = '>'
  · subst isClose
    rw [step?_close, Option.ite_none_right_eq_some] at stepped
    obtain ⟨⟨ends, inside⟩, same⟩ := stepped
    cases same
    obtain ⟨front, item, rfl, opens, isItem⟩ := fits.item ends
    -- the item is the last one of the list inside the brackets that are closed
    obtain ⟨outer, rfl⟩ := Nat.exists_eq_succ_of_ne_zero inside
    obtain ⟨start, whole, same, opens, isWhole⟩ := opens.exists_isItem (.single isItem)
    rw [same]
    exact fits_closed opens isWhole
  by_cases blank : isBlank c = true
  · rw [step?_blank limit _ blank, Option.ite_none_right_eq_some] at stepped
    obtain ⟨separated, same⟩ := stepped
    cases same
    obtain ⟨front, item, rfl, opens, isItem⟩ := fits.comma separated
    have opens := Opens.comma opens isItem (.inr ⟨c, blank, rfl⟩)
    rw [List.append_assoc]
    exact fits_fresh opens
  · have letter : IsNameChar c := ⟨isOpen, isComma, isClose, eq_false_of_ne_true blank⟩
    rw [step?_letter limit _ letter] at stepped
    have first : IsName [c] := ⟨List.cons_ne_nil _ _, List.forall_mem_singleton.2 letter⟩
    cases mark with
    | closed => cases stepped
    | fresh =>
      cases stepped
      exact fits_letter (fits.opens rfl) first
    | separated =>
      cases stepped
      exact fits_letter (fits.opens rfl) first
    | letter =>
      cases stepped
      obtain ⟨front, name, rfl, opens, isName⟩ := fits.name rfl
      have longer : IsName (name ++ [c]) :=
        ⟨List.append_ne_nil_of_left_ne_nil isName.1 _,
          List.forall_mem_append.2 ⟨isName.2, first.2⟩⟩
      rw [List.append_assoc]
      exact fits_letter opens longer

/-- The outline of the front of a text is true. -/
theorem fits_of_run? (ran : run? limit {} text = some outline) : Fits limit outline text := by
  induction text using List.reverseRecOn generalizing outline with
  | nil =>
    cases ran
    exact fits_fresh .start
  | append_singleton text c ih =>
    rw [run?_append, Option.bind_eq_some_iff] at ran
    obtain ⟨before, front, last⟩ := ran
    rw [run?_cons, Option.bind_eq_some_iff] at last
    obtain ⟨next, stepped, same⟩ := last
    cases same
    exact (ih front).step stepped

end Outline

/-! ## The front of a text and the whole text -/

/-- A text is a list of items exactly if its outline has no open brackets and ends an item. -/
theorem isItemList_iff :
    IsItemList limit text ↔
      ∃ mark : Mark, mark.isEnd = true ∧ run? limit {} text = some ⟨0, mark⟩ := by
  constructor
  · intro isList
    have start : Mark.isStart .fresh = true := rfl
    exact isList.exists_run? start (Nat.le_of_eq (Nat.zero_add limit))
  · rintro ⟨mark, ends, ran⟩
    obtain ⟨front, item, rfl, opens, isItem⟩ := (fits_of_run? ran).item ends
    have whole := opens.isItemList (.single isItem)
    rwa [List.replicate_zero, List.append_nil] at whole

/-- A text is the front of a list of items exactly if it has an outline. -/
theorem isViable_iff : IsViable limit text ↔ ∃ outline, run? limit {} text = some outline := by
  constructor
  · rintro ⟨behind, isList⟩
    obtain ⟨mark, -, ran⟩ := isItemList_iff.1 isList
    rw [run?_append, Option.bind_eq_some_iff] at ran
    obtain ⟨outline, front, -⟩ := ran
    exact ⟨outline, front⟩
  · rintro ⟨⟨depth, mark⟩, ran⟩
    have fits := fits_of_run? ran
    cases ends : mark.isEnd with
    | true =>
      -- all that is missing are the closing brackets
      obtain ⟨front, item, rfl, opens, isItem⟩ := fits.item ends
      exact ⟨_, opens.isItemList (.single isItem)⟩
    | false =>
      -- one more item is missing, and the closing brackets
      have start : mark.isStart = true := by
        cases mark with
        | fresh => rfl
        | separated => rfl
        | _ => cases ends
      have letter : IsName ['x'] :=
        ⟨List.cons_ne_nil _ _, List.forall_mem_singleton.2
          ⟨by decide, by decide, by decide, by decide⟩⟩
      have whole := (fits.opens start).isItemList (.single (.name letter))
      rw [List.append_assoc] at whole
      exact ⟨_, whole⟩

instance (limit : Nat) (text : List Char) : Decidable (IsViable limit text) :=
  decidable_of_iff ((run? limit {} text).isSome = true) (by
    rw [isViable_iff, Option.isSome_iff_exists])

example : IsViable 1 "A<B, ".toList ∧ ¬ IsViable 1 "A<B<".toList := by decide

end GenericTypes
