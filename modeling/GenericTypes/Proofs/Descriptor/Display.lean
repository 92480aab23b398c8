import GenericTypes.Proofs.Descriptor.Search
import GenericTypes.Proofs.Registry.Names
import GenericTypes.Proofs.Signature.Tree

/-! # Display forms

The display form of a descriptor is the text of a tree of short names of the same shape. Texts of
such trees are unambiguous even where names are empty, so a display form that can be taken apart
into a tree of names at all is taken apart into this one. Short names are made of the characters of
the binary name and of brackets for arrays, none of which is a separator. But a class whose name
ends in a character at which short names are cut has an empty one: where it stands alone in a
display form nothing stands, and no tree of names has this text. -/

namespace GenericTypes

/-! ## Short names -/

/-- What follows the last mark ends with the text, and is empty if the text ends with the mark. -/
theorem afterLast_concat (mark c : Char) (front : List Char) :
    afterLast mark (front ++ [c]) = if c = mark then [] else afterLast mark front ++ [c] := by
  rw [afterLast, List.reverse_concat, List.takeWhile_cons]
  by_cases isMark : c = mark
  · rw [if_pos isMark, if_neg (by simpa using isMark), List.reverse_nil]
  · rw [if_neg isMark, if_pos (by simpa using isMark), List.reverse_cons]
    rfl

/-- What follows the last mark is a part of the text. -/
theorem mem_of_mem_afterLast {mark c : Char} {text : List Char} (mem : c ∈ afterLast mark text) :
    c ∈ text :=
  List.mem_reverse.1 ((List.takeWhile_sublist _).mem (List.mem_reverse.1 mem))

/-- The short name is a part of the binary name. -/
theorem mem_of_mem_shortName {name : String} {c : Char} (mem : c ∈ (shortName name).toList) :
    c ∈ name.toList := by
  rw [shortName, String.toList_ofList] at mem
  exact mem_of_mem_afterLast (mem_of_mem_afterLast mem)

/-- The short name is empty exactly if the binary name ends where short names are cut. -/
theorem shortName_eq_nil_iff {name : String} (nonempty : name.toList ≠ []) :
    (shortName name).toList = []
      ↔ name.toList.getLast? = some '.' ∨ name.toList.getLast? = some '$' := by
  obtain ⟨front, last, whole⟩ : ∃ front last, name.toList = front ++ [last] :=
    ⟨_, _, (List.dropLast_concat_getLast nonempty).symm⟩
  rw [shortName, String.toList_ofList, whole, List.getLast?_concat, afterLast_concat,
    Option.some.injEq, Option.some.injEq]
  by_cases dot : last = '.'
  · rw [if_pos dot]
    exact iff_of_true rfl (.inl dot)
  · rw [if_neg dot, afterLast_concat]
    by_cases dollar : last = '$'
    · rw [if_pos dollar]
      exact iff_of_true rfl (.inr dollar)
    · rw [if_neg dollar]
      exact iff_of_false (List.concat_ne_nil _ _) (not_or.2 ⟨dot, dollar⟩)

namespace RawType

/-- The short name of a raw type is that of its element, with a pair of brackets for each
dimension. -/
theorem toList_shortName (raw : RawType) :
    raw.shortName.toList = (GenericTypes.shortName raw.element.name).toList
      ++ (List.replicate raw.dimensions "[]").flatMap String.toList := by
  rw [shortName, String.toList_append, String.toList_join]

/-- The short name of a raw type has the characters of the name of its element, or brackets. -/
theorem mem_shortName {raw : RawType} {c : Char} (mem : c ∈ raw.shortName.toList) :
    c ∈ raw.element.name.toList ∨ c = '[' ∨ c = ']' := by
  rw [toList_shortName, List.mem_append] at mem
  rcases mem with mem | mem
  · exact .inl (mem_of_mem_shortName mem)
  · obtain ⟨brackets, isPair, inside⟩ := List.mem_flatMap.1 mem
    rw [List.eq_of_mem_replicate isPair] at inside
    exact .inr (by simpa using inside)

/-- The short name of a raw type is empty exactly if the raw type is no array and the short name of
its element is empty. -/
theorem shortName_eq_nil_iff {raw : RawType} :
    raw.shortName.toList = []
      ↔ raw.isArray = false ∧ (GenericTypes.shortName raw.element.name).toList = [] := by
  rw [toList_shortName, List.append_eq_nil_iff, and_comm, isArray, bne_eq_false_iff_eq]
  refine and_congr_left fun _ => ?_
  cases raw.dimensions with
  | zero => exact iff_of_true rfl rfl
  | succ dimensions =>
    refine iff_of_false ?_ (Nat.succ_ne_zero dimensions)
    rw [List.replicate_succ, List.flatMap_cons]
    exact List.append_ne_nil_of_left_ne_nil (by decide) _

end RawType

namespace Registry.Populated

variable {registry : Registry} {raw : RawType}

/-- The short name of a raw type of a registry holds no separator. -/
theorem isNameChar_shortName (populated : registry.Populated)
    (mem : raw.element ∈ registry.declared) : ∀ c ∈ raw.shortName.toList, IsNameChar c := by
  intro c inside
  rcases RawType.mem_shortName inside with inName | rfl | rfl
  · exact (populated.isLegal mem).isName.2 c inName
  · exact ⟨by decide, by decide, by decide, by decide⟩
  · exact ⟨by decide, by decide, by decide, by decide⟩

/-- The short name of a raw type of a registry is a name exactly if the raw type is an array or its
binary name does not end where short names are cut. -/
theorem isName_shortName_iff (populated : registry.Populated)
    (mem : raw.element ∈ registry.declared) :
    IsName raw.shortName.toList
      ↔ raw.isArray = true
        ∨ raw.name.toList.getLast? ≠ some '.' ∧ raw.name.toList.getLast? ≠ some '$' := by
  have chars := populated.isNameChar_shortName mem
  have legal := (populated.isLegal mem).isName
  rw [IsName, and_iff_left chars, Ne, RawType.shortName_eq_nil_iff,
    GenericTypes.shortName_eq_nil_iff legal.1]
  cases isArray : raw.isArray with
  | true =>
    refine iff_of_true ?_ (.inl rfl)
    rintro ⟨isPlain, -⟩
    cases isPlain
  | false =>
    rw [RawType.isArray, bne_eq_false_iff_eq] at isArray
    rw [RawType.name_of_dimensions_eq isArray]
    simp

end Registry.Populated

/-! ## Trees of names -/

namespace Descriptor

/-- The tree of what the raw types of a descriptor are called by `nameOf`. -/
def tree (nameOf : RawType → String) (descriptor : Descriptor) : Signature :=
  .applied (nameOf descriptor.raw) (descriptor.arguments.map fun argument => argument.tree nameOf)
termination_by sizeOf descriptor
decreasing_by exact sizeOf_lt_of_mem_arguments ‹_›

/-- The tree of a node is a node with the trees of the arguments. -/
theorem tree_mk (nameOf : RawType → String) (here : Address) (raw : RawType)
    (arguments : List Descriptor) (identity : Bool) :
    tree nameOf ⟨here, raw, arguments, identity⟩
      = .applied (nameOf raw) (arguments.map (tree nameOf)) := by
  rw [tree]

/-- The text of a descriptor is the text of the tree. -/
theorem text_tree (nameOf : RawType → String) (descriptor : Descriptor) :
    (descriptor.tree nameOf).text = descriptor.render nameOf := by
  induction descriptor using inductionOnArguments with
  | step descriptor ih =>
    have texts : (descriptor.arguments.map fun argument => argument.tree nameOf).map Signature.text
        = descriptor.arguments.map fun argument => argument.render nameOf := by
      rw [List.map_map]
      exact List.map_congr_left ih
    rw [tree, Signature.text, render, texts, List.isEmpty_map]

/-- A descriptor without arguments is its only node. -/
theorem forall_nodes_leaf_iff {P : Descriptor → Prop} {here : Address} {raw : RawType} :
    (∀ node ∈ (leaf here raw).nodes, P node) ↔ P (leaf here raw) :=
  forall_nodes_iff.trans (and_iff_left (List.forall_mem_nil _))

/-- The names in the tree are of a kind exactly if what the raw types are called is. -/
theorem isTree_tree_iff {isName : String → Prop} {nameOf : RawType → String}
    {descriptor : Descriptor} :
    (descriptor.tree nameOf).IsTree isName
      ↔ ∀ node ∈ descriptor.nodes, isName (nameOf node.raw) := by
  induction descriptor using inductionOnArguments with
  | step descriptor ih =>
    rw [tree, forall_nodes_iff]
    constructor
    · intro isTree
      cases isTree with
      | applied named inner =>
        exact ⟨named, fun argument mem => (ih argument mem).1 (inner _ (List.mem_map_of_mem mem))⟩
    · rintro ⟨named, inner⟩
      refine .applied named (List.forall_mem_map.2 fun argument mem => ?_)
      exact (ih argument mem).2 (inner argument mem)

end Descriptor

namespace Registry

variable {registry : Registry} {descriptor : Descriptor}

/-- A tree of names whose text is the display form of a descriptor over a registry is the tree of
short names. -/
theorem Populated.eq_tree_of_text_eq (populated : registry.Populated)
    (mem : ∀ node ∈ descriptor.nodes, node.raw.element ∈ registry.declared) {tree : Signature}
    (isTree : tree.IsTree fun name => IsName name.toList) (same : tree.text = descriptor.display) :
    tree = descriptor.tree RawType.shortName := by
  refine Signature.eq_of_text_eq (isTree.imp fun name isName => ?_) ?_
    (same.trans (Descriptor.text_tree _ _).symm)
  · exact Signature.isPlain_of_isNameChar isName.2
  · -- the tree of short names may have empty ones
    refine Descriptor.isTree_tree_iff.2 fun node inside => ?_
    exact Signature.isPlain_of_isNameChar (populated.isNameChar_shortName (mem node inside))

/-- **Display forms are trees of short names, unless one of these is empty.** In a registry that
calls lead to from the standard one, take a descriptor over its raw types. A tree of names, which
are not empty and hold no brackets, commas and blanks, has the display form of the descriptor as its
text exactly if it is the tree of the short names, of the same shape as the descriptor, and no node
of the descriptor has an empty short name: each is an array, or its binary name does not end in `.`
or `$`. -/
theorem ReachableFrom.text_eq_display_iff (reached : ReachableFrom standard registry)
    (handles : ∀ node ∈ descriptor.nodes, registry.IsHandle node.raw) (tree : Signature) :
    (tree.IsTree fun name => IsName name.toList) ∧ tree.text = descriptor.display
      ↔ tree = descriptor.tree RawType.shortName
        ∧ ∀ node ∈ descriptor.nodes, node.raw.isArray = true
          ∨ node.raw.name.toList.getLast? ≠ some '.' ∧ node.raw.name.toList.getLast? ≠ some '$' := by
  have populated := reached.populated
  have mem : ∀ node ∈ descriptor.nodes, node.raw.element ∈ registry.declared :=
    fun node inside => populated.isHandle_iff.1 (handles node inside)
  have named : ((descriptor.tree RawType.shortName).IsTree fun name => IsName name.toList)
      ↔ ∀ node ∈ descriptor.nodes, node.raw.isArray = true
        ∨ node.raw.name.toList.getLast? ≠ some '.' ∧ node.raw.name.toList.getLast? ≠ some '$' :=
    Descriptor.isTree_tree_iff.trans
      (forall₂_congr fun node inside => populated.isName_shortName_iff (mem node inside))
  constructor
  · rintro ⟨isTree, same⟩
    cases populated.eq_tree_of_text_eq mem isTree same
    exact ⟨rfl, named.1 isTree⟩
  · rintro ⟨rfl, filled⟩
    exact ⟨named.2 filled, Descriptor.text_tree _ _⟩

/-- The display form of a crate of an array and a box is a tree of four names. -/
theorem ReachableFrom.text_eq_display_crate :
    let int : RawType := .ofDeclaration (.primitive .int)
    let inner : Descriptor := ⟨⟨0, [1]⟩, .ofDeclaration box, [.leaf ⟨0, [1, 0]⟩ int], false⟩
    let descriptor : Descriptor :=
      ⟨⟨0, []⟩, .ofDeclaration crate, [.leaf ⟨0, [0]⟩ (int.arrayOf 2), inner], false⟩
    let tree : Signature := .applied "Crate"
      [.applied "int[][]" [], .applied "Box" [.applied "int" []]]
    ReachableFrom standard crates ∧ (∀ node ∈ descriptor.nodes, crates.IsHandle node.raw)
      ∧ tree = descriptor.tree RawType.shortName
      ∧ (∀ node ∈ descriptor.nodes, node.raw.isArray = true
        ∨ node.raw.name.toList.getLast? ≠ some '.' ∧ node.raw.name.toList.getLast? ≠ some '$')
      ∧ (tree.IsTree fun name => IsName name.toList) ∧ tree.text = descriptor.display := by
  intro int inner descriptor tree
  have reached := reachableFrom_crates
  have handles : ∀ node ∈ descriptor.nodes, crates.IsHandle node.raw := by
    have number : crates.IsHandle int := reached.populated.isHandle_primitive .int
    have numbers : crates.IsHandle (int.arrayOf 2) :=
      reached.populated.isHandle_iff.2 (reached.populated.primitive_mem .int)
    refine Descriptor.forall_nodes_iff.2 ⟨isHandle_crate,
      List.forall_mem_cons.2 ⟨?_, List.forall_mem_singleton.2 ?_⟩⟩
    · exact Descriptor.forall_nodes_leaf_iff.2 numbers
    · refine Descriptor.forall_nodes_iff.2 ⟨isHandle_box, List.forall_mem_singleton.2 ?_⟩
      exact Descriptor.forall_nodes_leaf_iff.2 number
  have filled : ∀ node ∈ descriptor.nodes, node.raw.isArray = true
      ∨ node.raw.name.toList.getLast? ≠ some '.' ∧ node.raw.name.toList.getLast? ≠ some '$' := by
    refine Descriptor.forall_nodes_iff.2 ⟨.inr (by decide),
      List.forall_mem_cons.2 ⟨?_, List.forall_mem_singleton.2 ?_⟩⟩
    · exact Descriptor.forall_nodes_leaf_iff.2 (.inl rfl)
    · refine Descriptor.forall_nodes_iff.2 ⟨.inr (by decide), List.forall_mem_singleton.2 ?_⟩
      exact Descriptor.forall_nodes_leaf_iff.2 (.inr (by decide))
  have shape : tree = descriptor.tree RawType.shortName := by
    have crateName : (RawType.ofDeclaration crate).shortName = "Crate" := by decide
    have boxName : (RawType.ofDeclaration box).shortName = "Box" := by decide
    have intName : int.shortName = "int" := by decide
    have arrayName : (int.arrayOf 2).shortName = "int[][]" := by decide
    simp only [descriptor, inner, Descriptor.tree_mk, Descriptor.leaf, List.map_cons, List.map_nil,
      crateName, boxName, intName, arrayName, tree]
  exact ⟨reached, handles, shape, filled,
    (reached.text_eq_display_iff handles tree).2 ⟨shape, filled⟩⟩

/-- The display form of a box of a class whose name ends where short names are cut is no tree of
names. -/
theorem display_of_empty_shortName :
    let registry := (crates.define { name := "A$" }).2
    let cut : Declaration := .ordinary "A$" [] ⟨.top standardTop, []⟩ []
    let descriptor : Descriptor :=
      ⟨⟨0, []⟩, .ofDeclaration box, [.leaf ⟨0, [0]⟩ (.ofDeclaration cut)], false⟩
    ReachableFrom standard registry ∧ (∀ node ∈ descriptor.nodes, registry.IsHandle node.raw)
      ∧ descriptor.display = "Box<>"
      ∧ ∀ tree : Signature, (tree.IsTree fun name => IsName name.toList) →
        tree.text ≠ descriptor.display := by
  intro registry cut descriptor
  have reached : ReachableFrom standard registry := .define reachableFrom_crates _
  have populated := reached.populated
  have declared : registry.declared = cut :: crates.declared := by
    have new : crates.declared? "A$" = none := by
      rw [declared?, declared_crates, List.find?_cons_of_neg (by decide),
        List.find?_cons_of_neg (by decide)]
      exact declared?_standard_eq_none (by decide) (by decide)
    have accepted := define_plainClass ⟨by decide, by decide⟩ new
    rw [reachableFrom_crates.populated.topName_eq] at accepted
    exact congrArg (fun answer => answer.2.declared) accepted
  have mem : ∀ node ∈ descriptor.nodes, node.raw.element ∈ registry.declared := by
    rw [declared, declared_crates]
    refine Descriptor.forall_nodes_iff.2 ⟨?_, List.forall_mem_singleton.2 ?_⟩
    · exact List.mem_cons_of_mem _ (List.mem_cons_of_mem _ List.mem_cons_self)
    · exact Descriptor.forall_nodes_leaf_iff.2 List.mem_cons_self
  have shape : descriptor.tree RawType.shortName = .applied "Box" [.applied "" []] := by
    have boxName : (RawType.ofDeclaration box).shortName = "Box" := by decide
    have cutName : (RawType.ofDeclaration cut).shortName = "" := by decide
    simp only [descriptor, Descriptor.tree_mk, Descriptor.leaf, List.map_cons, List.map_nil,
      boxName, cutName]
  refine ⟨reached, fun node inside => populated.isHandle_iff.2 (mem node inside), ?_, ?_⟩
  · rw [Descriptor.display, ← Descriptor.text_tree, shape]
    simp only [Signature.text, List.isEmpty_cons, List.isEmpty_nil, Bool.false_eq_true, if_false,
      if_true, List.map_cons, List.map_nil]
    decide
  · intro tree isTree same
    -- the only tree in question has a node without a name
    rw [populated.eq_tree_of_text_eq mem isTree same, shape] at isTree
    cases isTree with
    | applied _ inner =>
      cases inner _ List.mem_cons_self with
      | applied named _ => exact named.1 rfl

end Registry

end GenericTypes
