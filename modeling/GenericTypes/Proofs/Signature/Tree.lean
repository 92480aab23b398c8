import GenericTypes.Proofs.Descriptor.Canonical
import GenericTypes.Proofs.Signature.Layer

/-! # Signatures and their texts

A tree of names can be written in many ways, as blanks are free around every name, around every
argument and around the whole. Each of these ways is taken apart into the name at the root and the
texts of the children, which are ways to write these again; so taking a text apart at every layer
gives back the tree that was written. One of the ways to write a tree is its plain text, with a
comma and a space between arguments. -/

namespace GenericTypes

namespace Signature

/-- Whether a text holds no brackets and no commas. -/
def IsPlain (text : List Char) : Prop :=
  ∀ c ∈ text, c ≠ '<' ∧ c ≠ ',' ∧ c ≠ '>'

instance (text : List Char) : Decidable (IsPlain text) :=
  List.decidableBAll (fun c => c ≠ '<' ∧ c ≠ ',' ∧ c ≠ '>') text

/-- Characters of which names are made are no brackets and no commas. -/
theorem isPlain_of_isNameChar {text : List Char} (each : ∀ c ∈ text, IsNameChar c) :
    IsPlain text :=
  fun c mem => ⟨(each c mem).1, (each c mem).2.1, (each c mem).2.2.1⟩

/-- Whether a text can be the name of a node: it is there, it is trimmed, and it holds no character
with a meaning of its own. -/
structure IsBaseName (name : List Char) : Prop where
  /-- There is a name. -/
  ne_nil : name ≠ []
  /-- It has no blanks around it. -/
  trimmed : IsTrimmed name
  /-- It holds no brackets and no commas. -/
  plain : IsPlain name

instance (name : List Char) : Decidable (IsBaseName name) :=
  decidable_of_iff (name ≠ [] ∧ IsTrimmed name ∧ IsPlain name)
    ⟨fun parts => ⟨parts.1, parts.2.1, parts.2.2⟩,
      fun isName => ⟨isName.ne_nil, isName.trimmed, isName.plain⟩⟩

/-- Whether a text is a way to write a signature: the name, followed by ways to write the arguments
between brackets if there are any, with blanks around all of these. -/
inductive IsWritten : Signature → List Char → Prop
  /-- A name and its arguments. -/
  | applied {name : String} {arguments : List Signature} {parts : List (List Char)}
      {text : List Char} (isName : IsBaseName name.toList)
      (inner : List.Forall₂ IsWritten arguments parts)
      (spelled : IsSpelled name.toList parts text) : IsWritten (.applied name arguments) text

/-- The text of a signature, with a comma and a space between arguments. -/
def text : Signature → String
  | malformed text => text
  | applied base arguments =>
    if arguments.isEmpty then base
    else base ++ "<" ++ ", ".intercalate (arguments.map text) ++ ">"

/-- Whether a signature is a tree, with names of a kind at all nodes. -/
inductive IsTree (isName : String → Prop) : Signature → Prop
  /-- A name and its arguments. -/
  | applied {name : String} {arguments : List Signature} (named : isName name)
      (inner : ∀ argument ∈ arguments, IsTree isName argument) :
      IsTree isName (.applied name arguments)

/-- Names of one kind are of every weaker kind. -/
theorem IsTree.imp {isName weaker : String → Prop} (each : ∀ name, isName name → weaker name)
    {tree : Signature} (isTree : tree.IsTree isName) : tree.IsTree weaker := by
  induction tree using inductionOnArguments with
  | malformed text => cases isTree
  | applied name arguments ih =>
    cases isTree with
    | applied named inner =>
      exact .applied (each name named) fun argument mem => ih argument mem (inner argument mem)

/-- The characters of the text of a signature. -/
def chars (signature : Signature) : List Char :=
  signature.text.toList

/-- The text of a base name with arguments has these between brackets. -/
theorem chars_applied (name : String) (arguments : List Signature) :
    (applied name arguments).chars = name.toList
      ++ if arguments.isEmpty then [] else '<' :: (listed (arguments.map chars) ++ ['>']) := by
  have texts : (arguments.map Signature.text).map String.toList = arguments.map chars :=
    List.map_map
  rw [chars, Signature.text]
  split
  · rw [List.append_nil]
  · rw [String.toList_append, String.toList_append, String.toList_append,
      String.toList_intercalate, texts]
    simp [listed]

variable {inner : Nat} {base text rest : List Char} {parts pieces items : List (List Char)}
  {c : Char} {tree : Signature} {name : String} {arguments : List Signature}

/-! ## Layers that are written -/

/-- What is written at a layer contains the base name. -/
theorem IsSpelled.mem (spelled : IsSpelled base parts text) (mem : c ∈ base) : c ∈ text := by
  cases spelled with
  | alone padded =>
    obtain ⟨lead, trail, -, -, rfl⟩ := padded
    exact List.mem_append_right _ (List.mem_append_left _ mem)
  | applied padded _ _ _ =>
    obtain ⟨lead, trail, -, -, rfl⟩ := padded
    exact List.mem_append_left _ (List.mem_append_right _ (List.mem_append_left _ mem))

/-- What is written at a layer with a name is not blank. -/
theorem IsSpelled.trim_ne_nil (spelled : IsSpelled base parts text) (isName : IsBaseName base) :
    trim text ≠ [] := by
  obtain ⟨c, behind, rfl⟩ := List.exists_cons_of_ne_nil isName.ne_nil
  intro none
  have blank := trim_eq_nil_iff.1 none c (spelled.mem List.mem_cons_self)
  rw [isName.trimmed.head_eq c rfl] at blank
  cases blank

/-- The blanks around the arguments of a layer can be seen as belonging to it. -/
theorem IsSpelled.map_trim (spelled : IsSpelled base parts text) :
    IsSpelled base (parts.map trim) text := by
  cases spelled with
  | alone padded => exact .alone padded
  | applied padded nonempty each blank =>
    refine .applied padded (mt List.map_eq_nil_iff.1 nonempty) ?_ blank
    exact List.forall₂_map_left_iff.2 (each.imp fun _ _ padded => (isPadded_trim _).trans padded)

/-- Nested pieces stay nested inside brackets, with commas between them. -/
theorem isNestedFrom_joined_append (nested : ∀ piece ∈ pieces, IsNestedFrom 0 piece)
    (rests : IsNestedFrom (inner + 1) rest) : IsNestedFrom (inner + 1) (joined pieces ++ rest) := by
  induction pieces with
  | nil => exact rests
  | cons first others ih =>
    rw [List.forall_mem_cons] at nested
    rw [← Nat.zero_add (inner + 1)]
    cases others with
    | nil =>
      rw [joined_singleton]
      exact nested.1.append rests
    | cons second others =>
      rw [joined_cons_cons, List.append_assoc]
      exact nested.1.append
        (isNestedFrom_cons.2 ⟨fun _ => Nat.succ_ne_zero inner, ih nested.2⟩)

/-- What is written at a layer is nested if the name is one and the arguments are nested. -/
theorem IsSpelled.isNestedFrom (spelled : IsSpelled base parts text) (isName : IsBaseName base)
    (nested : ∀ part ∈ parts, IsNestedFrom 0 part) : IsNestedFrom 0 text := by
  have alone : IsNestedFrom 0 base := by
    have named : IsNestedFrom 0 (base ++ []) ↔ IsNestedFrom 0 [] :=
      isNestedFrom_append_of_forall isName.plain
    rw [List.append_nil] at named
    exact named.2 (isNestedFrom_nil.2 rfl)
  cases spelled with
  | alone padded => exact (isNestedFrom_iff_of_isPadded padded).2 alone
  | @applied front trail _ pieces padded _ each blank =>
    rw [← Nat.zero_add 0]
    refine ((isNestedFrom_iff_of_isPadded padded).2 alone).append ?_
    -- the brackets are opened, the pieces stand inside, and the brackets are closed
    have behind : IsNestedFrom 0 trail :=
      (isNestedFrom_iff_of_isPadded ⟨trail, [], blank, allBlank_nil, by simp⟩).2
        (isNestedFrom_nil.2 rfl)
    have closed : IsNestedFrom 1 ('>' :: trail) :=
      isNestedFrom_cons.2 ⟨fun _ => Nat.one_ne_zero, behind⟩
    refine isNestedFrom_cons.2 ⟨by decide, ?_⟩
    exact isNestedFrom_joined_append (isNestedFrom_of_forall₂ nested each) closed

/-- What is written at a layer with a name and nested arguments is taken apart there. -/
theorem IsSpelled.isLayer (spelled : IsSpelled base parts text) (isName : IsBaseName base)
    (isPart : ∀ part ∈ parts, IsNestedFrom 0 part ∧ trim part ≠ []) :
    IsLayer text base (parts.map trim) where
  base_ne_nil := isName.ne_nil
  base_trimmed := isName.trimmed
  noOpen := fun mem => (isName.plain _ mem).1 rfl
  plain := fun _ =>
    ⟨fun mem => (isName.plain _ mem).2.2 rfl, fun mem => (isName.plain _ mem).2.1 rfl⟩
  isArgument :=
    List.forall_mem_map.2 fun part mem => isArgument_trim (isPart part mem).1 (isPart part mem).2
  spelled := spelled.map_trim

/-! ## Trees that are written -/

/-- A way to write a tree is nested and not blank. -/
theorem IsWritten.isNestedFrom (written : IsWritten tree text) :
    IsNestedFrom 0 text ∧ trim text ≠ [] := by
  induction tree using inductionOnArguments generalizing text with
  | malformed text => cases written
  | applied name arguments ih =>
    cases written with
    | applied isName inner spelled =>
      refine ⟨spelled.isNestedFrom isName fun part mem => ?_, spelled.trim_ne_nil isName⟩
      obtain ⟨argument, inside, written⟩ := exists_mem_of_forall₂ inner mem
      exact (ih argument inside written).1

/-- A way to write a tree is a layer, whose arguments are ways to write the children. -/
theorem IsWritten.isLayer (written : IsWritten (.applied name arguments) text) :
    ∃ parts, List.Forall₂ IsWritten arguments parts
      ∧ IsLayer text name.toList (parts.map GenericTypes.trim) := by
  cases written with
  | @applied _ _ parts _ isName inner spelled =>
    refine ⟨parts, inner, spelled.isLayer isName fun part mem => ?_⟩
    obtain ⟨argument, inside, written⟩ := exists_mem_of_forall₂ inner mem
    exact written.isNestedFrom

/-- A way to write a tree stays one without the blanks around it. -/
theorem IsWritten.trim (written : IsWritten tree text) :
    IsWritten tree (GenericTypes.trim text) := by
  induction tree using inductionOnArguments generalizing text with
  | malformed text => cases written
  | applied name arguments ih =>
    obtain ⟨parts, inner, layer⟩ := written.isLayer
    cases written with
    | applied isName _ _ =>
      refine .applied isName (List.forall₂_map_right_iff.2 ?_) layer.trim.spelled
      exact forall₂_of_mem inner fun argument mem part written => ih argument mem written

/-- A text that is a way to write a tree is taken apart, at every layer, into this tree. -/
theorem ofChars_of_isWritten (written : IsWritten tree text) : ofChars text = tree := by
  induction tree using inductionOnArguments generalizing text with
  | malformed text => cases written
  | applied name arguments ih =>
    obtain ⟨parts, inner, layer⟩ := written.isLayer
    have children : arguments = (parts.map GenericTypes.trim).map ofChars := by
      rw [← List.forall₂_eq_eq_eq, List.map_map, List.forall₂_map_right_iff]
      exact forall₂_of_mem inner fun argument mem part written =>
        (ih argument mem written.trim).symm
    rw [ofChars_of_cut? (cut?_of_isLayer layer), ← children, String.ofList_toList]

/-- **Taking a text apart undoes writing it.** Take a tree of names that are there, are trimmed and
hold neither brackets nor commas, and write it in any way, with blanks around every name, around
every argument and around the whole. The text is taken apart into the name at the root and one text
for each child, in order, which is trimmed and a way to write the child; and taking the text apart
at every layer gives back the tree. -/
theorem split?_of_isWritten {text : String}
    (written : IsWritten (.applied name arguments) text.toList) :
    ∃ parts, split? text = some (name, parts)
      ∧ List.Forall₂ (fun argument part =>
          IsTrimmed part.toList ∧ IsWritten argument part.toList) arguments parts
      ∧ ofText text = .applied name arguments := by
  obtain ⟨parts, inner, layer⟩ := written.isLayer
  refine ⟨parts.map fun part => String.ofList (GenericTypes.trim part), ?_, ?_,
    ofChars_of_isWritten written⟩
  · rw [split?, cut?_of_isLayer layer]
    simp only [Option.map_some, String.ofList_toList, List.map_map]
    rfl
  · rw [List.forall₂_map_right_iff]
    refine inner.imp fun argument part written => ?_
    rw [String.toList_ofList]
    exact ⟨isTrimmed_trim part, written.trim⟩

/-- A map from keys to lists of values that is written with many blanks is taken apart. -/
theorem split?_of_isWritten_map :
    let tree : Signature := .applied "Map" [.applied "K" [], .applied "List" [.applied "V" []]]
    IsWritten tree " Map < K ,List <V> > ".toList
      ∧ split? " Map < K ,List <V> > " = some ("Map", ["K", "List <V>"])
      ∧ ofText " Map < K ,List <V> > " = tree := by
  intro tree
  have leaf : ∀ name : String, IsBaseName name.toList →
      IsWritten (.applied name []) name.toList :=
    fun name isName => .applied isName .nil (.alone (.refl _))
  have key := leaf "K" (by decide)
  have value := leaf "V" (by decide)
  have spaced : ∀ core : List Char, IsPadded core (' ' :: (core ++ [' '])) :=
    fun core => ⟨[' '], [' '], by decide, by decide, rfl⟩
  have closed : ∀ core : List Char, IsPadded core (core ++ [' ']) :=
    fun core => ⟨[], [' '], by decide, by decide, rfl⟩
  have inner : IsSpelled "List".toList ["V".toList] "List <V>".toList :=
    .applied (closed "List".toList) (List.cons_ne_nil _ _) (.cons (.refl _) .nil) allBlank_nil
  have list : IsWritten (.applied "List" [.applied "V" []]) "List <V>".toList :=
    .applied (by decide) (.cons value .nil) inner
  have outer : IsSpelled "Map".toList ["K".toList, "List <V>".toList]
      " Map < K ,List <V> > ".toList :=
    @IsSpelled.applied _ " Map ".toList [' '] _ [" K ".toList, "List <V> ".toList]
      (spaced "Map".toList) (List.cons_ne_nil _ _)
      (.cons (spaced "K".toList) (.cons (closed "List <V>".toList) .nil)) (by decide)
  have written : IsWritten tree " Map < K ,List <V> > ".toList :=
    .applied (by decide) (.cons key (.cons list .nil)) outer
  obtain ⟨parts, split, -, whole⟩ := split?_of_isWritten written
  exact ⟨written, by decide, whole⟩

/-! ## Plain texts -/

/-- Items with a comma and a space between them are items with a comma between them, of which all
but the first have a blank in front. -/
theorem exists_joined_eq_listed (nonempty : items ≠ []) :
    ∃ pieces, List.Forall₂ IsPadded items pieces ∧ joined pieces = listed items := by
  induction items with
  | nil => exact absurd rfl nonempty
  | cons first others ih =>
    cases others with
    | nil => exact ⟨[first], .cons (.refl first) .nil, by rw [joined_singleton, listed_singleton]⟩
    | cons second others =>
      obtain ⟨pieces, each, same⟩ := ih (List.cons_ne_nil _ _)
      cases each with
      | @cons _ piece _ pieces padded each =>
        refine ⟨first :: (' ' :: piece) :: pieces, .cons (.refl first) (.cons ?_ each), ?_⟩
        · exact padded.cons (by decide)
        · have blank := joined_prependToFirst ' ' (piece :: pieces)
          rw [prependToFirst, same] at blank
          rw [joined_cons_cons, blank, listed_cons_cons, List.append_assoc]
          rfl

/-- The text of a tree of names is a way to write it. -/
theorem isWritten_chars (isTree : tree.IsTree fun name => IsBaseName name.toList) :
    IsWritten tree tree.chars := by
  induction tree using inductionOnArguments with
  | malformed text => cases isTree
  | applied name arguments ih =>
    cases isTree with
    | applied named inner =>
      have children : List.Forall₂ IsWritten arguments (arguments.map chars) :=
        List.forall₂_map_right_iff.2
          (List.forall₂_same.2 fun argument mem => ih argument mem (inner argument mem))
      refine .applied named children ?_
      rw [chars_applied]
      cases arguments with
      | nil =>
        rw [List.isEmpty_nil, if_pos rfl, List.append_nil]
        exact .alone (.refl _)
      | cons first others =>
        rw [List.isEmpty_cons, if_neg Bool.false_ne_true]
        have nonempty : (first :: others).map chars ≠ [] := List.cons_ne_nil _ _
        obtain ⟨pieces, each, same⟩ := exists_joined_eq_listed nonempty
        rw [← same]
        exact .applied (.refl _) (List.cons_ne_nil _ _) each allBlank_nil

/-- The text of a tree of names is taken apart into the tree. -/
theorem ofText_text (isTree : tree.IsTree fun name => IsBaseName name.toList) :
    ofText tree.text = tree :=
  ofChars_of_isWritten (isWritten_chars isTree)

/-! ## Trees by their texts -/

/-- Whether a text ends, or goes on with what stands behind an item in a list. -/
def EndsItem (rest : List Char) : Prop :=
  ∀ c ∈ rest.head?, c = ',' ∨ c = '>'

variable {leftRest rightRest : List Char} {lefts rights : List Signature}

/-- A plain text ends where the first bracket or comma stands. -/
theorem eq_of_plain_append {left right : List Char} (leftPlain : IsPlain left)
    (rightPlain : IsPlain right) (leftMark : ∀ c ∈ leftRest.head?, c = '<' ∨ c = ',' ∨ c = '>')
    (rightMark : ∀ c ∈ rightRest.head?, c = '<' ∨ c = ',' ∨ c = '>')
    (same : left ++ leftRest = right ++ rightRest) : left = right ∧ leftRest = rightRest := by
  -- a character of the longer name would be a mark
  obtain ⟨more, rfl, rfl⟩ | ⟨more, rfl, rfl⟩ := List.append_eq_append_iff.1 same
  · cases more with
    | nil => exact ⟨(List.append_nil left).symm, rfl⟩
    | cons c more =>
      obtain ⟨noOpen, noComma, noClose⟩ :=
        rightPlain c (List.mem_append_right _ List.mem_cons_self)
      rcases leftMark c rfl with mark | mark | mark
      · exact absurd mark noOpen
      · exact absurd mark noComma
      · exact absurd mark noClose
  · cases more with
    | nil => exact ⟨List.append_nil right, rfl⟩
    | cons c more =>
      obtain ⟨noOpen, noComma, noClose⟩ :=
        leftPlain c (List.mem_append_right _ List.mem_cons_self)
      rcases rightMark c rfl with mark | mark | mark
      · exact absurd mark noOpen
      · exact absurd mark noComma
      · exact absurd mark noClose

/-- The texts of further items, each behind a comma and a space. -/
def charsBehind (trees : List Signature) : List Char :=
  trees.flatMap fun tree => ',' :: ' ' :: tree.chars

/-- The texts of items between brackets, if there are any. -/
def charsInside : List Signature → List Char
  | [] => []
  | first :: others => '<' :: (first.chars ++ (charsBehind others ++ ['>']))

/-- A list is its first item and the others behind commas. -/
theorem listed_map_chars (first : Signature) (others : List Signature) :
    listed ((first :: others).map chars) = first.chars ++ charsBehind others := by
  induction others generalizing first with
  | nil => simp [charsBehind]
  | cons second others ih =>
    rw [List.map_cons, List.map_cons, listed_cons_cons, ← List.map_cons, ih, charsBehind,
      charsBehind, List.flatMap_cons]
    simp

/-- The text of a tree is its name and the texts of its children between brackets. -/
theorem chars_applied_eq_append (name : String) (arguments : List Signature) :
    (applied name arguments).chars = name.toList ++ charsInside arguments := by
  rw [chars_applied]
  cases arguments with
  | nil => rfl
  | cons first others =>
    rw [listed_map_chars, List.isEmpty_cons, if_neg Bool.false_ne_true, charsInside,
      List.append_assoc]

/-- Behind an item there are the other items and a closing bracket. -/
theorem endsItem_charsBehind (trees : List Signature) (rest : List Char) :
    EndsItem (charsBehind trees ++ '>' :: rest) := by
  intro c first
  cases trees with
  | nil =>
    cases first
    exact .inr rfl
  | cons tree trees =>
    cases first
    exact .inl rfl

/-- Behind a name there is an opening bracket, or what stands behind the item. -/
theorem mark_of_mem_charsInside (trees : List Signature) (ends : EndsItem rest) :
    ∀ c ∈ (charsInside trees ++ rest).head?, c = '<' ∨ c = ',' ∨ c = '>' := by
  intro c first
  cases trees with
  | nil => exact .inr (ends c first)
  | cons tree trees =>
    cases first
    exact .inl rfl

section Items

variable (each : ∀ left ∈ lefts, ∀ right ∈ rights, ∀ leftRest rightRest,
  EndsItem leftRest → EndsItem rightRest →
    left.chars ++ leftRest = right.chars ++ rightRest → left = right ∧ leftRest = rightRest)

include each

/-- Items behind commas, up to the bracket that closes them, are determined by their texts if this
is true of each item. -/
theorem eq_of_charsBehind_append
    (same : charsBehind lefts ++ '>' :: leftRest = charsBehind rights ++ '>' :: rightRest) :
    lefts = rights ∧ leftRest = rightRest := by
  induction lefts generalizing rights with
  | nil =>
    cases rights with
    | nil =>
      cases same
      exact ⟨rfl, rfl⟩
    | cons right rights => cases same
  | cons left lefts ih =>
    cases rights with
    | nil => cases same
    | cons right rights =>
      simp only [charsBehind, List.flatMap_cons, List.cons_append, List.append_assoc,
        List.cons.injEq, true_and] at same
      obtain ⟨rfl, behind⟩ := each left List.mem_cons_self right List.mem_cons_self _ _
        (endsItem_charsBehind lefts leftRest) (endsItem_charsBehind rights rightRest) same
      obtain ⟨rfl, ended⟩ := ih (fun left leftMem right rightMem =>
        each left (List.mem_cons_of_mem _ leftMem) right (List.mem_cons_of_mem _ rightMem)) behind
      exact ⟨rfl, ended⟩

/-- Items between brackets, if there are any, are determined by their texts if this is true of each
item. -/
theorem eq_of_charsInside_append (leftEnds : EndsItem leftRest) (rightEnds : EndsItem rightRest)
    (same : charsInside lefts ++ leftRest = charsInside rights ++ rightRest) :
    lefts = rights ∧ leftRest = rightRest := by
  cases lefts with
  | nil =>
    cases rights with
    | nil => exact ⟨rfl, same⟩
    | cons right rights =>
      -- no item ends with an opening bracket behind it
      rw [charsInside, List.nil_append] at same
      subst same
      rcases leftEnds '<' rfl with mark | mark <;> cases mark
  | cons left lefts =>
    cases rights with
    | nil =>
      rw [charsInside, charsInside, List.nil_append] at same
      subst same
      rcases rightEnds '<' rfl with mark | mark <;> cases mark
    | cons right rights =>
      simp only [charsInside, List.cons_append, List.append_assoc, List.nil_append,
        List.cons.injEq, true_and] at same
      obtain ⟨rfl, behind⟩ := each left List.mem_cons_self right List.mem_cons_self _ _
        (endsItem_charsBehind lefts leftRest) (endsItem_charsBehind rights rightRest) same
      obtain ⟨rfl, ended⟩ := eq_of_charsBehind_append (fun left leftMem right rightMem =>
        each left (List.mem_cons_of_mem _ leftMem) right (List.mem_cons_of_mem _ rightMem)) behind
      exact ⟨rfl, ended⟩

end Items

/-- A tree of plain names, which may be empty, is determined by its text, and so is where the text
ends. -/
theorem eq_of_chars_append {left right : Signature}
    (leftTree : left.IsTree fun name => IsPlain name.toList)
    (rightTree : right.IsTree fun name => IsPlain name.toList) (leftEnds : EndsItem leftRest)
    (rightEnds : EndsItem rightRest)
    (same : left.chars ++ leftRest = right.chars ++ rightRest) :
    left = right ∧ leftRest = rightRest := by
  induction left using inductionOnArguments generalizing right leftRest rightRest with
  | malformed text => cases leftTree
  | applied name arguments ih =>
    cases leftTree with
    | applied named inner =>
    cases rightTree with
    | @applied other others otherNamed otherInner =>
    rw [chars_applied_eq_append, chars_applied_eq_append, List.append_assoc,
      List.append_assoc] at same
    obtain ⟨names, same⟩ := eq_of_plain_append named otherNamed
      (mark_of_mem_charsInside arguments leftEnds) (mark_of_mem_charsInside others rightEnds) same
    obtain ⟨rfl, rest⟩ := eq_of_charsInside_append
      (fun left leftMem right rightMem _ _ leftEnds rightEnds same =>
        ih left leftMem (inner left leftMem) (otherInner right rightMem) leftEnds rightEnds same)
      leftEnds rightEnds same
    rw [String.toList_inj.1 names]
    exact ⟨rfl, rest⟩

/-- Trees of plain names, which may be empty, are the same if their texts are. -/
theorem eq_of_text_eq {left right : Signature}
    (leftTree : left.IsTree fun name => IsPlain name.toList)
    (rightTree : right.IsTree fun name => IsPlain name.toList) (same : left.text = right.text) :
    left = right := by
  have ends : EndsItem [] := by
    intro c none
    cases none
  have same : left.chars ++ [] = right.chars ++ [] := by rw [chars, chars, same]
  exact (eq_of_chars_append leftTree rightTree ends ends same).1

end Signature

end GenericTypes
