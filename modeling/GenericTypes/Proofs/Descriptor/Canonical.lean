import GenericTypes.Descriptor.Draft
import GenericTypes.Descriptor.Printer
import GenericTypes.Text.Blank

/-! # Canonical texts and what they keep

The canonical text of a descriptor as a list of characters, the nodes of a descriptor, and the
descriptor that is left when everything is forgotten that the text does not show: identity mode and
the places where the nodes were made. -/

namespace GenericTypes

/-! ## Items and lists -/

/-- The characters of which names are made in a text of descriptors. -/
def IsNameChar (c : Char) : Prop :=
  c ≠ '<' ∧ c ≠ ',' ∧ c ≠ '>' ∧ isBlank c = false

/-- The names that can be told apart in a text of descriptors. -/
def IsName (text : List Char) : Prop :=
  text ≠ [] ∧ ∀ c ∈ text, IsNameChar c

/-- Items with a comma and a space between them. -/
def listed (items : List (List Char)) : List Char :=
  [',', ' '].intercalate items

/-- Items with a comma and a space behind each of them. -/
def followed (items : List (List Char)) : List Char :=
  items.flatMap fun item => item ++ [',', ' ']

@[simp] theorem listed_singleton (item : List Char) : listed [item] = item :=
  List.intercalate_singleton

theorem listed_cons_cons (first second : List Char) (rest : List (List Char)) :
    listed (first :: second :: rest) = first ++ [',', ' '] ++ listed (second :: rest) :=
  List.intercalate_cons_cons

@[simp] theorem followed_nil : followed [] = [] := rfl

theorem followed_cons (first : List Char) (rest : List (List Char)) :
    followed (first :: rest) = first ++ [',', ' '] ++ followed rest :=
  List.flatMap_cons

/-- One more item that is followed by a comma and a space. -/
theorem followed_append_singleton (items : List (List Char)) (item : List Char) :
    followed (items ++ [item]) = followed items ++ item ++ [',', ' '] := by
  simp [followed]

/-- In a list every item but the last is followed by a comma and a space. -/
theorem listed_append_singleton (items : List (List Char)) (item : List Char) :
    listed (items ++ [item]) = followed items ++ item := by
  induction items with
  | nil => rw [List.nil_append, listed_singleton, followed_nil, List.nil_append]
  | cons first rest ih =>
    cases rest with
    | nil =>
      rw [List.cons_append, List.nil_append, listed_cons_cons, listed_singleton, followed_cons,
        followed_nil, List.append_nil]
    | cons second rest =>
      rw [List.cons_append] at ih
      rw [List.cons_append, List.cons_append, listed_cons_cons, ih, followed_cons first]
      simp only [List.append_assoc]

/-- With a comma and a space behind it, a list has them behind every item. -/
theorem listed_append_separator {items : List (List Char)} (nonempty : items ≠ []) :
    listed items ++ [',', ' '] = followed items := by
  have whole := List.dropLast_concat_getLast nonempty
  rw [← whole, listed_append_singleton, followed_append_singleton]

namespace Descriptor

/-! ## Canonical texts -/

/-- The characters of the canonical text. -/
def chars (descriptor : Descriptor) : List Char :=
  descriptor.canonical.toList

/-- The canonical text is the name of the raw type, followed by the texts of the arguments between
brackets if there are any. -/
theorem chars_eq (descriptor : Descriptor) :
    descriptor.chars = descriptor.raw.name.toList
      ++ if descriptor.arguments.isEmpty then []
        else '<' :: (listed (descriptor.arguments.map chars) ++ ['>']) := by
  have texts : (descriptor.arguments.map fun argument => argument.render RawType.name).map
      String.toList = descriptor.arguments.map chars := List.map_map
  rw [chars, canonical, render]
  split
  · rw [List.append_nil]
  · rw [String.toList_append, String.toList_append, String.toList_append, String.toList_intercalate,
      texts]
    simp [listed]

/-- The canonical text of a descriptor without arguments is the name of its raw type. -/
@[simp] theorem chars_leaf (here : Address) (raw : RawType) :
    (leaf here raw).chars = raw.name.toList := by
  rw [chars_eq]
  exact List.append_nil _

/-- Descriptors whose raw types have the same name and whose arguments have the same canonical texts
have the same canonical text. -/
theorem canonical_congr {left right : Descriptor} (names : left.raw.name = right.raw.name)
    (texts : left.arguments.map canonical = right.arguments.map canonical) :
    left.canonical = right.canonical := by
  -- brackets are written on both sides or on neither
  have none : left.arguments.isEmpty = right.arguments.isEmpty := by
    rw [← List.isEmpty_map, texts, List.isEmpty_map]
  have texts : left.arguments.map (render RawType.name)
      = right.arguments.map (render RawType.name) := texts
  rw [canonical, render, canonical, render, names, texts, none]

/-- The canonical texts of several descriptors, with a comma and a space between them. -/
def canonicalList (descriptors : List Descriptor) : String :=
  ", ".intercalate (descriptors.map canonical)

/-- The canonical texts of several descriptors as a list of characters. -/
theorem toList_canonicalList (descriptors : List Descriptor) :
    (canonicalList descriptors).toList = listed (descriptors.map chars) := by
  rw [canonicalList, String.toList_intercalate, List.map_map]
  rfl

/-! ## Nodes -/

/-- The nodes of a descriptor: the descriptor itself and the nodes of its arguments. -/
def nodes (descriptor : Descriptor) : List Descriptor :=
  descriptor :: descriptor.arguments.flatMap fun argument => argument.nodes
termination_by sizeOf descriptor
decreasing_by exact sizeOf_lt_of_mem_arguments ‹_›

/-- What holds of all nodes holds of the root and of all nodes of the arguments. -/
theorem forall_nodes_iff {P : Descriptor → Prop} {descriptor : Descriptor} :
    (∀ node ∈ descriptor.nodes, P node) ↔
      P descriptor ∧ ∀ argument ∈ descriptor.arguments, ∀ node ∈ argument.nodes, P node := by
  rw [nodes]
  simp only [List.forall_mem_cons, List.forall_mem_flatMap]

/-! ## Depth -/

/-- The largest of some numbers is within a bound when all of them are. -/
theorem foldr_max_le_iff {numbers : List Nat} {bound : Nat} :
    numbers.foldr Nat.max 0 ≤ bound ↔ ∀ number ∈ numbers, number ≤ bound := by
  induction numbers with
  | nil => simp
  | cons first rest ih =>
    rw [List.foldr_cons, List.forall_mem_cons, ← ih]
    exact Nat.max_le

/-- A descriptor is nested within a bound when its arguments are nested below it. -/
theorem depth_le_iff {descriptor : Descriptor} {bound : Nat} :
    descriptor.depth ≤ bound ↔ ∀ argument ∈ descriptor.arguments, argument.depth < bound := by
  rw [depth, foldr_max_le_iff, List.forall_mem_map]
  exact Iff.rfl

/-! ## What a text shows of a descriptor -/

mutual

/-- The descriptor with the same raw types at new places, without identity mode. -/
def erased (here : Address) : Descriptor → Descriptor
  | ⟨_, raw, arguments, _⟩ => ⟨here, raw, erasedAll here 0 arguments, false⟩

/-- The arguments of the node at an address without identity mode, the first of them being the
argument with the given index. -/
def erasedAll (here : Address) (index : Nat) : List Descriptor → List Descriptor
  | [] => []
  | argument :: rest => argument.erased (here.child index) :: erasedAll here (index + 1) rest

end

/-- An erased descriptor is made of the same raw type and the erased arguments. -/
theorem erased_eq (here : Address) (descriptor : Descriptor) :
    descriptor.erased here
      = ⟨here, descriptor.raw, erasedAll here 0 descriptor.arguments, false⟩ := by
  cases descriptor
  rw [erased]

@[simp] theorem raw_erased (here : Address) (descriptor : Descriptor) :
    (descriptor.erased here).raw = descriptor.raw := by
  rw [erased_eq]

@[simp] theorem arguments_erased (here : Address) (descriptor : Descriptor) :
    (descriptor.erased here).arguments = erasedAll here 0 descriptor.arguments := by
  rw [erased_eq]

@[simp] theorem identity_erased (here : Address) (descriptor : Descriptor) :
    (descriptor.erased here).identity = false := by
  rw [erased_eq]

/-- Erasing keeps the number of descriptors. -/
@[simp] theorem length_erasedAll (here : Address) (index : Nat) (descriptors : List Descriptor) :
    (erasedAll here index descriptors).length = descriptors.length := by
  induction descriptors generalizing index with
  | nil => rfl
  | cons first rest ih => rw [erasedAll, List.length_cons, List.length_cons, ih]

/-- Several descriptors are erased from left to right. -/
theorem erasedAll_append_singleton (here : Address) (index : Nat) (descriptors : List Descriptor)
    (last : Descriptor) :
    erasedAll here index (descriptors ++ [last])
      = erasedAll here index descriptors
        ++ [last.erased (here.child (index + descriptors.length))] := by
  induction descriptors generalizing index with
  | nil => rfl
  | cons first rest ih =>
    rw [List.cons_append, erasedAll, erasedAll, ih, List.cons_append, List.length_cons,
      Nat.add_right_comm, Nat.add_assoc]

/-- What erasing changes in no descriptor it changes in no list of them. -/
theorem map_erasedAll {α : Type} {f : Descriptor → α} {descriptors : List Descriptor}
    (same : ∀ descriptor ∈ descriptors, ∀ here, f (descriptor.erased here) = f descriptor)
    (here : Address) (index : Nat) :
    (erasedAll here index descriptors).map f = descriptors.map f := by
  induction descriptors generalizing index with
  | nil => rfl
  | cons first rest ih =>
    rw [List.forall_mem_cons] at same
    rw [erasedAll, List.map_cons, List.map_cons, same.1, ih same.2]

/-- Erasing keeps the canonical text. -/
@[simp] theorem canonical_erased (here : Address) (descriptor : Descriptor) :
    (descriptor.erased here).canonical = descriptor.canonical := by
  induction descriptor using inductionOnArguments generalizing here with
  | step descriptor ih =>
    apply canonical_congr
    · rw [raw_erased]
    · rw [arguments_erased]
      exact map_erasedAll ih here 0

/-- Erasing keeps the depth. -/
@[simp] theorem depth_erased (here : Address) (descriptor : Descriptor) :
    (descriptor.erased here).depth = descriptor.depth := by
  induction descriptor using inductionOnArguments generalizing here with
  | step descriptor ih =>
    rw [depth, depth, arguments_erased]
    have same : ∀ argument ∈ descriptor.arguments, ∀ here,
        (argument.erased here).depth + 1 = argument.depth + 1 :=
      fun argument mem here => congrArg (· + 1) (ih argument mem here)
    rw [map_erasedAll same]

/-- What is in a list of erased descriptors is one of the descriptors, erased. -/
theorem exists_of_mem_erasedAll {here : Address} {index : Nat} {descriptors : List Descriptor}
    {result : Descriptor} (mem : result ∈ erasedAll here index descriptors) :
    ∃ descriptor ∈ descriptors, ∃ place, result = descriptor.erased place := by
  induction descriptors generalizing index with
  | nil => cases mem
  | cons first rest ih =>
    rw [erasedAll] at mem
    rcases List.mem_cons.1 mem with rfl | mem
    · exact ⟨first, List.mem_cons_self, here.child index, rfl⟩
    · obtain ⟨descriptor, member, place, rfl⟩ := ih mem
      exact ⟨descriptor, List.mem_cons_of_mem _ member, place, rfl⟩

/-- No node is a marker after erasing, and the raw types are those that were there. -/
theorem forall_nodes_erased {P : RawType → Prop} {descriptor : Descriptor}
    (holds : ∀ node ∈ descriptor.nodes, P node.raw) (here : Address) :
    ∀ node ∈ (descriptor.erased here).nodes, node.identity = false ∧ P node.raw := by
  induction descriptor using inductionOnArguments generalizing here with
  | step descriptor ih =>
    rw [forall_nodes_iff] at holds ⊢
    rw [identity_erased, raw_erased, arguments_erased]
    refine ⟨⟨rfl, holds.1⟩, fun argument mem => ?_⟩
    obtain ⟨original, member, place, rfl⟩ := exists_of_mem_erasedAll mem
    exact ih original member (holds.2 original member) place

end Descriptor

end GenericTypes
