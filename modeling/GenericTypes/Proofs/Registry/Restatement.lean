import GenericTypes.Proofs.Related
import GenericTypes.Proofs.Descriptor.Search
import GenericTypes.Proofs.Registry.ArrayLookup
import GenericTypes.Proofs.Signature.Tree

/-! # Definitions in the texts of what they declare

What an accepted definition declares has uses of types above it, and these have texts. The texts can
take the place of the signatures in the definition. A signature that resolves is a way to write a
tree of names: each of them is a parameter, the name of the type, or the name of what is found under
it. So the text of what it resolves to is the plain text of the same tree, which is read as this
tree and resolves as before. Nothing is assumed of the names of parameters: one that could not be
read would not have been found in the signature either. -/

namespace GenericTypes

/-- A definition with the texts of the supertypes that it declares in place of its signatures. -/
def Definition.restated (definition : Definition) (declaration : Declaration) : Definition :=
  { definition with
    superclass := definition.superclass.bind fun _ => declaration.superclass?.map (·.toUse.text)
    interfaces := declaration.interfaces.map (·.toUse.text) }

/-- A text that is a name can be the name of a node in a signature. -/
theorem IsName.isBaseName {name : List Char} (isName : IsName name) :
    Signature.IsBaseName name where
  ne_nil := isName.1
  trimmed := isName.isTrimmed
  plain := Signature.isPlain_of_isNameChar isName.2

variable {find : String → Except RegistryError RawType} {definition later : Definition}
  {use : TypeUse} {name : String}

/-! ## Signatures that resolve -/

/-- The text of what a bare name stands for is the name, if types are found under their names. -/
theorem Definition.text_of_resolveName (named : ∀ raw, find name = .ok raw → raw.name = name)
    (resolved : definition.resolveName find name = .ok use) : use.text = name := by
  obtain ⟨-, rfl⟩ | ⟨-, rfl⟩ | ⟨raw, found, rfl⟩ := Registry.resolveName_cases resolved
  · rw [TypeUse.text]
  · rw [TypeUse.text]
  · rw [TypeUse.text, named raw found]

namespace Signature

/-- The name in a layer without arguments can be the name of a node. -/
theorem IsLayer.isBaseName {text base : List Char} (layer : IsLayer text base []) :
    IsBaseName base where
  ne_nil := layer.base_ne_nil
  trimmed := layer.base_trimmed
  plain := by
    obtain ⟨noClose, noComma⟩ := layer.plain rfl
    intro c mem
    exact ⟨fun opens => layer.noOpen (opens ▸ mem), fun separates => noComma (separates ▸ mem),
      fun closes => noClose (closes ▸ mem)⟩

/-- A signature that resolves has been read as a tree of names, and its plain text is the text of
what it resolves to. -/
theorem text_of_resolve {registry : Registry} (populated : registry.Populated) {text : List Char}
    (resolved : (ofChars text).resolve registry.find definition = .ok use) :
    ((ofChars text).IsTree fun name => IsBaseName name.toList)
      ∧ use.text = (ofChars text).text := by
  generalize same : ofChars text = signature at resolved ⊢
  induction signature using inductionOnArguments generalizing text use with
  | malformed text =>
    rw [resolve] at resolved
    cases resolved
  | applied name arguments ih =>
    obtain ⟨parts, layer, rfl⟩ := exists_isLayer_of_ofChars same
    rw [Signature.text]
    obtain ⟨alone, resolved⟩ | ⟨applied, raw, uses, found, -, usesEq, rfl⟩ :=
      Registry.resolve_cases resolved
    · -- a bare name is checked by the reader, whatever it stands for
      rw [alone]
      rw [List.map_eq_nil_iff.1 alone] at layer
      exact ⟨.applied layer.isBaseName (List.forall_mem_nil _),
        Definition.text_of_resolveName (fun raw found => populated.name_of_find found) resolved⟩
    · -- a name with arguments is that of a type that is found
      have isName : IsName name.toList := populated.isReadable_scope.isName found
      have inner : List.Forall₂ (fun argument use =>
          (argument.IsTree fun name => IsBaseName name.toList) ∧ argument.text = use.text)
          (parts.map ofChars) uses := by
        refine forall₂_of_mem (mapM_eq_ok_iff_forall₂.1 usesEq) ?_
        intro argument mem use resolved
        obtain ⟨part, inside, rfl⟩ := List.mem_map.1 mem
        obtain ⟨isTree, text⟩ := ih _ mem rfl resolved
        exact ⟨isTree, text.symm⟩
      have texts : (parts.map ofChars).map Signature.text = uses.map TypeUse.text := by
        rw [← List.forall₂_eq_eq_eq, List.forall₂_map_right_iff, List.forall₂_map_left_iff]
        exact inner.imp fun argument use both => both.2
      refine ⟨.applied isName.isBaseName fun argument mem => ?_, ?_⟩
      · obtain ⟨use, -, isTree, -⟩ := exists_mem_of_forall₂ inner.flip mem
        exact isTree
      · rw [TypeUse.text, populated.name_of_find found, texts,
          if_neg (mt List.isEmpty_iff.1 applied)]

/-- What a signature resolves to depends on the name and the parameters of the definition only. -/
theorem keepsSuccess_resolve_of_name_eq (names : later.name = definition.name)
    (parameters : later.parameters = definition.parameters) (signature : Signature) :
    KeepsSuccess (signature.resolve find definition) (signature.resolve find later) := by
  induction signature using inductionOnArguments with
  | malformed text =>
    rw [resolve]
    exact .of_error _ _
  | applied base arguments ih =>
    rw [resolve_applied, resolve_applied]
    split
    · rw [Definition.resolveName, Definition.resolveName, names, parameters]
      exact .refl _
    · refine (KeepsSuccess.refl _).bind fun raw => ?_
      split
      · exact .of_error _ _
      · exact (KeepsSuccess.mapM ih).bind fun uses => .refl _

/-- What a signature resolves to is no application without arguments. -/
theorem ne_parameterized_nil_of_resolve {signature : Signature}
    (resolved : signature.resolve find definition = .ok use) (raw : RawType) :
    use ≠ .parameterized raw [] := by
  rintro rfl
  cases signature with
  | malformed text =>
    rw [resolve] at resolved
    cases resolved
  | applied base arguments =>
    obtain ⟨-, resolved⟩ | ⟨applied, other, uses, -, -, usesEq, same⟩ :=
      Registry.resolve_cases resolved
    · obtain ⟨-, same⟩ | ⟨-, same⟩ | ⟨other, -, same⟩ := Registry.resolveName_cases resolved
        <;> cases same
    · cases same
      exact applied (List.eq_nil_of_length_eq_zero (length_of_mapM usesEq).symm)

end Signature

/-- A supertype that is taken from a use is seen as the use, unless that is an application without
arguments. -/
theorem Supertype.toUse_of_ofUse? {supertype : Supertype}
    (isSupertype : ofUse? use = some supertype)
    (applied : ∀ raw, use ≠ .parameterized raw []) : supertype.toUse = use := by
  unfold ofUse? at isSupertype
  split at isSupertype
  · cases isSupertype
    rfl
  · rename_i declaration arguments
    cases isSupertype
    rw [toUse, if_neg]
    · rfl
    · exact fun none => applied _ (congrArg _ (List.isEmpty_iff.1 none))
  · cases isSupertype

namespace Registry

variable {registry : Registry} {declaration : Declaration}

/-! ## Definitions that are accepted -/

/-- The text of a supertype in a definition stands for the supertype, in every definition of the
same name and parameters. -/
theorem Populated.supertype_text (populated : registry.Populated)
    {isWanted : Declaration → Bool} {fault : String → DefinitionFault} {signature : String}
    {supertype : Supertype}
    (accepted : Registry.supertype registry.find definition isWanted fault signature
      = .ok supertype)
    (names : later.name = definition.name) (parameters : later.parameters = definition.parameters) :
    Registry.supertype registry.find later isWanted fault supertype.toUse.text
      = .ok supertype := by
  obtain ⟨wanted, use, resolved, isSupertype⟩ := exists_resolve_of_supertype accepted
  obtain ⟨isTree, text⟩ := Signature.text_of_resolve populated resolved
  have seen := Supertype.toUse_of_ofUse? isSupertype
    (Signature.ne_parameterized_nil_of_resolve resolved)
  -- the text is read as the tree that the signature was read as
  have read : Signature.ofText supertype.toUse.text = Signature.ofText signature := by
    rw [seen, text]
    exact Signature.ofText_text isTree
  have again := Signature.keepsSuccess_resolve_of_name_eq names parameters _ _ resolved
  have kept : (Supertype.ofUse? use).filter (isWanted ·.declaration) = some supertype :=
    Option.filter_eq_some_iff.2 ⟨isSupertype, wanted⟩
  simp only [Registry.supertype, read, again, bind, Except.bind, kept]
  rfl

/-- The superclass that a definition declares is that of the definition in texts. -/
theorem Populated.superclass_restated (populated : registry.Populated) {superclass : Supertype}
    (accepted : registry.superclass registry.find definition = .ok superclass)
    (declares : declaration.superclass? = some superclass) :
    registry.superclass registry.find (definition.restated declaration) = .ok superclass := by
  unfold Registry.superclass at accepted ⊢
  rw [Definition.restated, declares]
  cases given : definition.superclass with
  | none =>
    -- the root is not named before and not afterwards
    rw [given] at accepted
    exact accepted
  | some signature =>
    rw [given] at accepted
    exact populated.supertype_text accepted rfl rfl

/-- The interfaces that a definition declares are those of the definition in texts. -/
theorem Populated.interfaces_restated (populated : registry.Populated)
    (accepted : Registry.interfaces registry.find definition = .ok declaration.interfaces) :
    Registry.interfaces registry.find (definition.restated declaration)
      = .ok declaration.interfaces := by
  rw [Registry.interfaces, Definition.restated, mapM_eq_ok_iff_forall₂, List.forall₂_map_left_iff,
    List.forall₂_same]
  intro supertype mem
  obtain ⟨signature, -, resolved⟩ := exists_of_mem_mapM accepted mem
  exact populated.supertype_text resolved rfl rfl

/-- **A definition can be written in the texts of what it declares.** In a registry that calls lead
to from the standard one, take a definition that is accepted, and put the texts of the supertypes
that it declares in place of its signatures. The registry accepts this as well, and declares the
same: a type of the same name and kind with the same parameters, the same superclass and the same
interfaces. -/
theorem ReachableFrom.define_restated (reached : ReachableFrom standard registry)
    (accepted : (registry.define definition).1 = .ok declaration) :
    (registry.define (definition.restated declaration)).1 = .ok declaration := by
  have populated := reached.populated
  rw [define_fst] at accepted ⊢
  obtain ⟨sound, new, interfaces, interfacesEq, shape⟩ := declaration_cases accepted
  rcases shape with ⟨kind, none, rfl⟩ | ⟨kind, superclass, superclassEq, rfl⟩
  · refine declaration_of_supertypes sound new (populated.interfaces_restated interfacesEq)
      (.inl ⟨kind, ?_, rfl⟩)
    rw [Definition.restated, none]
    rfl
  · exact declaration_of_supertypes sound new (populated.interfaces_restated interfacesEq)
      (.inr ⟨kind, superclass, populated.superclass_restated superclassEq rfl, rfl⟩)

/-- A definition of a class that is ordered in a box of its parameter and by itself, with blanks. -/
def shelfDefinition : Definition where
  name := "Shelf"
  parameters := ["A"]
  superclass := some " java.lang.Object"
  interfaces := ["Crate < Box<A> ,Shelf >"]

/-- The class that it declares. -/
def shelf : Declaration :=
  .ordinary "Shelf" ["A"] ⟨.top standardTop, []⟩
    [⟨crate, [.parameterized (.ofDeclaration box) [.parameter "A" []], .named "Shelf"]⟩]

/-- The definition without the blanks declares the same class. -/
theorem ReachableFrom.define_restated_shelf :
    ReachableFrom standard crates ∧ (crates.define shelfDefinition).1 = .ok shelf
      ∧ shelfDefinition.restated shelf
        = { shelfDefinition with
            superclass := some "java.lang.Object", interfaces := ["Crate<Box<A>, Shelf>"] }
      ∧ (crates.define (shelfDefinition.restated shelf)).1 = .ok shelf := by
  have reached := reachableFrom_crates
  have populated := reached.populated
  have crateMem : crate ∈ crates.declared := declared_crates ▸ List.mem_cons_self
  have boxMem : box ∈ crates.declared :=
    declared_crates ▸ List.mem_cons_of_mem _ List.mem_cons_self
  have crateFound : crates.find "Crate" = .ok (.ofDeclaration crate) := populated.find_name crateMem
  have boxFound : crates.find "Box" = .ok (.ofDeclaration box) := populated.find_name boxMem
  have bounds : Signature.ofText "Crate < Box<A> ,Shelf >"
      = .applied "Crate" [.applied "Box" [.applied "A" []], .applied "Shelf" []] := by
    have whole : Signature.split? "Crate < Box<A> ,Shelf >" = some ("Crate", ["Box<A>", "Shelf"]) :=
      by decide
    have inner : Signature.split? "Box<A>" = some ("Box", ["A"]) := by decide
    have parameter : Signature.split? "A" = some ("A", []) := by decide
    have self : Signature.split? "Shelf" = some ("Shelf", []) := by decide
    simp only [Signature.ofText_of_split? whole, Signature.ofText_of_split? inner,
      Signature.ofText_of_split? parameter, Signature.ofText_of_split? self, List.map_cons,
      List.map_nil]
  have root : Signature.ofText " java.lang.Object" = .applied standardTop [] := by
    have split : Signature.split? " java.lang.Object" = some (standardTop, []) := by decide
    exact Signature.ofText_of_split? split
  have new : crates.declared? "Shelf" = none := by
    rw [declared?, declared_crates, List.find?_cons_of_neg (by decide),
      List.find?_cons_of_neg (by decide)]
    exact declared?_standard_eq_none (by decide) (by decide)
  have accepted : (crates.define shelfDefinition).1 = .ok shelf := by
    rw [define_fst]
    refine declaration_of_supertypes (by decide) new ?_
      (.inr ⟨rfl, ⟨.top standardTop, []⟩, ?_, rfl⟩)
    · simp only [interfaces, shelfDefinition, List.mapM_cons, List.mapM_nil, supertype, bounds,
        Signature.resolve_applied, crateFound, boxFound]
      rfl
    · simp only [superclass, shelfDefinition, supertype, root, Signature.resolve_applied,
        Definition.resolveName, populated.find_standardTop]
      rfl
  refine ⟨reached, accepted, ?_, reached.define_restated accepted⟩
  simp only [Definition.restated, shelf, Declaration.superclass?, Declaration.interfaces,
    Option.map_some, List.map_cons, List.map_nil, Supertype.toUse, List.isEmpty_cons,
    List.isEmpty_nil, if_true, Bool.false_eq_true, if_false, TypeUse.text]
  rfl

end Registry

end GenericTypes
