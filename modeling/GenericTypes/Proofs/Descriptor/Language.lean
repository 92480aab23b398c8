import GenericTypes.Proofs.Descriptor.Spelling

/-! # The texts that are read

Without leniency the texts that are read are, up to blanks around them, the canonical texts of
descriptors without markers, with one blank or none behind each comma. What is read from such a text
is equal to the descriptors, and its canonical text is the normal form of the text. -/

namespace GenericTypes

/-! ## The raw types that are found -/

/-- The raw type that is found under the name of another one, or that one itself. -/
def Scope.known (scope : Scope) (raw : RawType) : RawType :=
  (scope.find raw.name).toOption.getD raw

/-- The raw type that is found under a name has that name. -/
theorem Scope.IsReadable.name_known {scope : Scope} (readable : scope.IsReadable) (raw : RawType) :
    (scope.known raw).name = raw.name := by
  rw [known]
  cases found : scope.find raw.name with
  | error cause => rfl
  | ok known => exact readable.name_eq found

/-- What is found under the name of a raw type is found under its own name. -/
theorem Scope.IsReadable.find_known {scope : Scope} (readable : scope.IsReadable)
    {raw found : RawType} (find : scope.find raw.name = .ok found) :
    scope.find (scope.known raw).name = .ok (scope.known raw) := by
  have same : scope.known raw = found := by
    rw [known, find]
    rfl
  rw [readable.name_known, find, same]

namespace Descriptor

variable {scope : Scope} {limit : Nat} {here : Address} {text : String}

/-! ## Texts that are read -/

/-- Whether a descriptor can be what a text says: it has no markers, all its raw types are found
under their names, and the limit leaves room for its brackets. -/
structure IsSayable (scope : Scope) (limit : Nat) (descriptor : Descriptor) : Prop where
  /-- No node is a marker, and under the name of its raw type an equal one is found. -/
  nodes : ∀ node ∈ descriptor.nodes, node.identity = false
    ∧ ∃ known, scope.find node.raw.name = .ok known ∧ (known == node.raw) = true
  /-- The brackets are within the limit. -/
  depth_le : descriptor.depth ≤ limit

/-- What is read comes from descriptors that can be read again, whose canonical text is the normal
form of the text. -/
theorem exists_of_readAll (readable : scope.IsReadable) {results : List Descriptor}
    (read : readAll scope ⟨limit, false⟩ here text = .ok results) :
    ∃ items, results = erasedAll here 0 items
      ∧ (∀ item ∈ items, Scan.Readable ⟨scope, ⟨limit, false⟩, here⟩ 0 item)
      ∧ normalized false (trim text.toList) = (canonicalList items).toList
      ∧ IsWellSpelled scope limit (trim text.toList) := by
  let context : Scan.Context := ⟨scope, ⟨limit, false⟩, here⟩
  have readable : context.scope.IsReadable := readable
  have strict : context.options.lenient = false := rfl
  have trimmed := isTrimmed_trim text.toList
  obtain ⟨after, items, runs, finishes, rfl⟩ := (Scan.readBody_eq_ok_iff strict).1 read
  obtain ⟨fits, normal⟩ := Scan.readable_and_text_of_finishes readable trimmed runs finishes
  rw [← toList_canonicalList] at normal
  exact ⟨items, rfl, fits, normal, Scan.isWellSpelled_of_finishes trimmed runs finishes⟩

/-- Everything that is equal to what is read can be what the text says. -/
theorem sayable_of_readAll (readable : scope.IsReadable) {results descriptors : List Descriptor}
    (read : readAll scope ⟨limit, false⟩ here text = .ok results)
    (equal : (results == descriptors) = true) :
    (∀ descriptor ∈ descriptors, descriptor.IsSayable scope limit)
      ∧ Respaced (canonicalList descriptors).toList (trim text.toList) := by
  obtain ⟨items, rfl, fits, normal, -⟩ := exists_of_readAll readable read
  rw [beq_eq_equalAll] at equal
  -- equality compares names only, so this is all of the raw types that it carries over
  let IsFound (name : String) : Prop :=
    ∃ known, scope.find name = .ok known ∧ (known.name == name) = true
  have nodes : ∀ item ∈ items, ∀ place, ∀ node ∈ (item.erased place).nodes,
      node.identity = false ∧ IsFound node.raw.name := by
    intro item mem place
    apply forall_nodes_erased (P := fun raw => IsFound raw.name)
    intro node inside
    exact ⟨node.raw, (fits item mem).found node inside, beq_self_eq_true node.raw.name⟩
  constructor
  · intro descriptor mem
    obtain ⟨result, member, same⟩ := exists_of_equalAll equal mem
    obtain ⟨item, inItems, place, rfl⟩ := exists_of_mem_erasedAll member
    have plain := fun node inside => (nodes item inItems place node inside).1
    have within := (Scan.readable_zero_iff.1 (fits item inItems)).2
    refine ⟨forall_nodes_of_equal (P := IsFound) (nodes item inItems place) same, ?_⟩
    rw [depth_eq_of_equal plain same, depth_erased]
    exact within
  · have texts : descriptors.map canonical = (erasedAll here 0 items).map canonical := by
      apply map_eq_of_equalAll equal
      intro result member descriptor _ same
      obtain ⟨item, inItems, place, rfl⟩ := exists_of_mem_erasedAll member
      exact canonical_eq_of_equal (fun node inside => (nodes item inItems place node inside).1) same
    have text : canonicalList descriptors = canonicalList items := by
      rw [← canonicalList_erasedAll here 0 items, canonicalList, canonicalList, texts]
    rw [text, ← normal]
    exact (respaced_normalized _).1

/-- What a text can say is read from it. -/
theorem readAll_of_sayable (readable : scope.IsReadable) {descriptors : List Descriptor}
    (sayable : ∀ descriptor ∈ descriptors, descriptor.IsSayable scope limit)
    (respaced : Respaced (canonicalList descriptors).toList (trim text.toList)) :
    ∃ results, readAll scope ⟨limit, false⟩ here text = .ok results
      ∧ (results == descriptors) = true := by
  let context : Scan.Context := ⟨scope, ⟨limit, false⟩, here⟩
  have readable : context.scope.IsReadable := readable
  -- the descriptors made of the raw types that the scope knows
  let known := descriptors.map (mapRaw scope.known)
  have fits : ∀ descriptor ∈ known, Scan.Readable context 0 descriptor := by
    rw [List.forall_mem_map]
    intro descriptor mem
    refine Scan.readable_zero_iff.2 ⟨?_, ?_⟩
    · apply forall_nodes_mapRaw (P := fun raw => scope.find raw.name = .ok raw)
      intro node inside
      obtain ⟨-, found, find, -⟩ := (sayable descriptor mem).nodes node inside
      exact readable.find_known find
    · rw [depth_mapRaw]
      exact (sayable descriptor mem).depth_le
  have texts : known.map chars = descriptors.map chars := by
    rw [List.map_map]
    apply List.map_congr_left
    intro descriptor mem
    exact congrArg String.toList (canonical_mapRaw readable.name_known descriptor)
  rw [toList_canonicalList, ← texts] at respaced
  -- what is read is made of the known raw types, which are equal to the given ones
  refine ⟨_, Scan.readBody_of_respaced readable fits respaced _, ?_⟩
  apply erasedAll_mapRaw_beq readable.name_known
  intro descriptor mem node inside
  exact ((sayable descriptor mem).nodes node inside).1

end Descriptor

open Descriptor in
/-- **The texts that are read without leniency.** The registry is one that calls lead to from the
standard one. Descriptors equal to given ones are read exactly when those have no markers, when all
their raw types are found under their names, when the limit leaves room for their brackets, and when
the trimmed text comes from their canonical texts by other spacing. The canonical text of what is
read is the normal form of the trimmed text, which is well spelled. -/
theorem Registry.ReachableFrom.readAll_eq_ok_iff {registry : Registry}
    (reached : Registry.ReachableFrom standard registry) (limit : Nat) (here : Address)
    (text : String) :
    (∀ descriptors : List Descriptor,
      (∃ results, readAll registry.scope ⟨limit, false⟩ here text = .ok results
        ∧ (results == descriptors) = true) ↔
      (∀ descriptor ∈ descriptors, descriptor.IsSayable registry.scope limit)
        ∧ Respaced (canonicalList descriptors).toList (trim text.toList))
    ∧ ∀ results, readAll registry.scope ⟨limit, false⟩ here text = .ok results →
      (canonicalList results).toList = normalized false (trim text.toList)
        ∧ IsWellSpelled registry.scope limit (trim text.toList) := by
  have readable := reached.populated.isReadable_scope
  constructor
  · intro descriptors
    constructor
    · rintro ⟨results, read, equal⟩
      exact sayable_of_readAll readable read equal
    · rintro ⟨sayable, respaced⟩
      exact readAll_of_sayable readable sayable respaced
  · intro results read
    obtain ⟨items, rfl, -, normal, spelled⟩ := exists_of_readAll readable read
    rw [canonicalList_erasedAll, normal]
    exact ⟨rfl, spelled⟩

open Descriptor in
/-- In the standard registry a text is read that has blanks around it, no space behind one comma and
a wide one behind another. -/
theorem Registry.ReachableFrom.readAll_spaced :
    Registry.ReachableFrom standard standard
    ∧ ∃ results,
      readAll standard.scope ⟨1, false⟩ ⟨1, []⟩ "\t java.lang.Object<int,\u3000int>,int\n"
        = .ok results
      ∧ (results == [⟨⟨0, []⟩, .ofDeclaration (.top standardTop),
          [.leaf ⟨0, [0]⟩ (.ofDeclaration (.primitive .int)),
            .leaf ⟨0, [1]⟩ (.ofDeclaration (.primitive .int))], false⟩,
          .leaf ⟨1, []⟩ (.ofDeclaration (.primitive .int))]) = true := by
  have reached : ReachableFrom standard standard := .start
  have object : ∃ known, standard.scope.find standardTop = .ok known
      ∧ (known.name == standardTop) = true := ⟨_, populated_standard.find_standardTop, by decide⟩
  have int : ∃ known, standard.scope.find Primitive.int.name = .ok known
      ∧ (known.name == Primitive.int.name) = true :=
    ⟨_, populated_standard.find_primitive .int, by decide⟩
  have leaf : ∀ here, (Descriptor.leaf here (.ofDeclaration (.primitive .int))).IsSayable
      standard.scope 0 :=
    fun here => ⟨forall_nodes_iff.2 ⟨⟨rfl, int⟩, nofun⟩, depth_le_iff.2 nofun⟩
  have below : ∀ here, (Descriptor.leaf here (.ofDeclaration (.primitive .int))).depth < 1 :=
    fun here => Nat.lt_succ_of_le (leaf here).depth_le
  refine ⟨reached, ((readAll_eq_ok_iff reached 1 ⟨1, []⟩ _).1 _).2 ⟨?_, ?_⟩⟩
  · refine List.forall_mem_cons.2 ⟨⟨forall_nodes_iff.2 ⟨⟨rfl, object⟩, ?_⟩, depth_le_iff.2 ?_⟩,
      List.forall_mem_singleton.2 ⟨(leaf _).nodes, Nat.le_of_lt (below _)⟩⟩
    · exact List.forall_mem_cons.2 ⟨(leaf _).nodes, List.forall_mem_singleton.2 (leaf _).nodes⟩
    · exact List.forall_mem_cons.2 ⟨below _, List.forall_mem_singleton.2 (below _)⟩
  · have normal := (respaced_normalized (trim "\t java.lang.Object<int,\u3000int>,int\n".toList)).1
    rw [toList_canonicalList, List.map_cons, List.map_singleton, chars_leaf, chars_eq]
    simp only [List.map_cons, List.map_nil, chars_leaf]
    refine cast (congrArg₂ Respaced ?_ rfl) normal
    decide

end GenericTypes
