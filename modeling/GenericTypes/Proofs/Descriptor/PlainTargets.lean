import GenericTypes.Proofs.Descriptor.GenericSupertypes

/-! # Targets without type parameters

A descriptor without arguments accepts what its raw type accepts and what has no arguments either.
A type without type parameters can only be inherited without arguments, so a search for it comes to
the same as the test for raw types. The root is the exception. It accepts every class and interface,
but an interface does not inherit the root, so the search needs something else without arguments: it
misses the root exactly from an interface that has arguments and inherits nothing without. -/

namespace GenericTypes

/-- A descriptor without arguments accepts what has no arguments and a raw type that fits. -/
theorem Descriptor.accepts_leaf_iff {here : Address} {raw : RawType} {candidate : Descriptor} :
    (leaf here raw).accepts candidate = true ↔
      raw.accepts candidate.outline.1 = true ∧ candidate.outline.2 = 0 := by
  have fits : (raw.accepts candidate.raw && 0 == candidate.arguments.length) = true ↔
      raw.accepts candidate.outline.1 = true ∧ candidate.outline.2 = 0 := by
    rw [Bool.and_eq_true, beq_iff_eq, eq_comm (a := 0)]
    rfl
  rw [accepts, beq_iff_eq, fit, ← fits]
  split
  · exact iff_of_true rfl ‹_›
  · refine iff_of_false ?_ ‹_›
    intro exact
    cases exact

/-- A class or an interface is a declared type that is not primitive, without dimensions. -/
theorem RawType.exists_eq_ofDeclaration {raw : RawType}
    (kind : raw.isClass = true ∨ raw.isInterface = true) :
    ∃ declaration, raw = ofDeclaration declaration ∧ declaration.isPrimitive = false := by
  obtain ⟨declaration, dimensions⟩ := raw
  cases dimensions with
  | zero =>
    refine ⟨declaration, rfl, ?_⟩
    cases declaration with
    | primitive type => exact kind.elim nofun nofun
    | _ => rfl
  | succ dimensions => exact kind.elim nofun nofun

namespace Registry

variable {registry : Registry} {declaration target : Declaration}

/-- For a type without type parameters a search through what a type inherits comes to the test for
declared types, but for an interface with arguments that has to inherit something without if the
root is looked for. -/
theorem Resolved.inherits_or_iff (resolved : registry.Resolved)
    (targetMem : target ∈ registry.declared) (mem : declaration ∈ registry.declared)
    (kind : declaration.isPrimitive = false) (plain : target.parameters = [])
    {arguments : List Descriptor}
    (arity : arguments = [] ∨ arguments.length = declaration.parameters.length) :
    (target.accepts declaration = true ∧ arguments = []
        ∨ ∃ supertype, declaration.Inherits supertype
          ∧ target.accepts supertype.declaration = true ∧ supertype.arguments = [])
      ↔ target.accepts declaration = true
        ∧ (target.isTop = true → declaration.isInterface = true → arguments ≠ [] →
          ∃ supertype, declaration.Inherits supertype ∧ supertype.arguments = []) := by
  constructor
  · rintro (⟨accepts, bare⟩ | ⟨supertype, inherits, accepts, bare⟩)
    · exact ⟨accepts, fun _ _ applied => absurd bare applied⟩
    · exact ⟨resolved.accepts_of_inherits targetMem mem inherits accepts,
        fun _ _ _ => ⟨supertype, inherits, bare⟩⟩
  · rintro ⟨accepts, inherited⟩
    by_cases bare : arguments = []
    · exact .inl ⟨accepts, bare⟩
    · refine .inr ?_
      by_cases free : target.isTop = true ∧ declaration.isInterface = true
      · -- the root accepts whatever the interface inherits without arguments
        obtain ⟨supertype, inherits, none⟩ := inherited free.1 free.2 bare
        obtain ⟨supertypeMem, supertypeKind⟩ := resolved.mem_of_inherits mem inherits
        exact ⟨supertype, inherits,
          resolved.accepts_of_isTop targetMem supertypeMem free.1 supertypeKind, none⟩
      · have different : target ≠ declaration := by
          rintro rfl
          rw [plain] at arity
          exact bare (arity.elim id List.eq_nil_of_length_eq_zero)
        obtain ⟨supertype, inherits, rfl⟩ := resolved.exists_inherits_of_accepts targetMem mem kind
          accepts different fun top => by simpa using fun isInterface => free ⟨top, isInterface⟩
        exact ⟨supertype, inherits, (resolved.accepts_iff targetMem targetMem).2 (.inl rfl),
          resolved.arguments_eq_nil mem inherits plain⟩

/-! ## The search -/

/-- Declared types as raw types accept each other as they do themselves. -/
theorem Populated.accepts_ofDeclaration_iff (populated : registry.Populated)
    (targetMem : target ∈ registry.declared) (mem : declaration ∈ registry.declared) :
    (RawType.ofDeclaration target).accepts (.ofDeclaration declaration) = true
      ↔ target.accepts declaration = true := by
  rw [populated.rawAccepts_iff targetMem mem]
  simp [RawType.ofDeclaration]

/-- A descriptor of a declared type accepts what has no arguments and a declared type that fits. -/
theorem Populated.accepts_leaf_iff (populated : registry.Populated) {here : Address}
    {upper : Descriptor} {arguments : Nat} (targetMem : target ∈ registry.declared)
    (mem : declaration ∈ registry.declared)
    (same : upper.outline = (.ofDeclaration declaration, arguments)) :
    (Descriptor.leaf here (.ofDeclaration target)).accepts upper = true
      ↔ target.accepts declaration = true ∧ arguments = 0 := by
  rw [Descriptor.accepts_leaf_iff, same, populated.accepts_ofDeclaration_iff targetMem mem]

/-- A search for a declared type from a class or an interface finds it by the start, if that has no
arguments, or by something that is inherited without arguments. -/
theorem ReachableFrom.acceptsThroughSupertypes_leaf (reached : ReachableFrom standard registry)
    (here : Address) {start : Descriptor} (targetMem : target ∈ registry.declared)
    (isElement : start.raw = .ofDeclaration declaration)
    (handles : ∀ node ∈ start.nodes, registry.IsHandle node.raw) (places : start.PlacesAgree) :
    (Descriptor.leaf here (.ofDeclaration target)).acceptsThroughSupertypes registry.scope start
        = true
      ↔ target.accepts declaration = true ∧ start.arguments = []
        ∨ ∃ supertype, declaration.Inherits supertype
          ∧ target.accepts supertype.declaration = true ∧ supertype.arguments = [] := by
  have populated := reached.populated
  have resolved := reached.isReachable.resolved
  have startMem := populated.isHandle_iff.1 (Descriptor.forall_nodes_iff.1 handles).1
  have mem : declaration ∈ registry.declared := by rwa [isElement] at startMem
  have outline : start.outline = (.ofDeclaration declaration, start.arguments.length) :=
    congrArg (·, start.arguments.length) isElement
  obtain ⟨final, runs, ends⟩ := Search.exists_run_acceptsAbove registry.scope
    (Descriptor.leaf here (.ofDeclaration target)) [] [start]
  -- what is accepted of what is reached depends on outlines only
  refine (reached.answer_iff handles places runs ends).trans ⟨?_, ?_⟩
  · rintro ⟨upper, reaches, accepted⟩
    rcases resolved.outline_cases_of_reaches startMem reaches with
      same | ⟨supertype, inherits, same⟩
    · obtain ⟨accepts, bare⟩ :=
        (populated.accepts_leaf_iff targetMem mem (same.trans outline)).1 accepted
      exact .inl ⟨accepts, List.eq_nil_of_length_eq_zero bare⟩
    · rw [isElement] at inherits
      have supertypeMem := (resolved.mem_of_inherits mem inherits).1
      obtain ⟨accepts, bare⟩ :=
        (populated.accepts_leaf_iff targetMem supertypeMem same.symm).1 accepted
      exact .inr ⟨supertype, inherits, accepts, List.eq_nil_of_length_eq_zero bare⟩
  · rintro (⟨accepts, bare⟩ | ⟨supertype, inherits, accepts, bare⟩)
    · have bare := congrArg List.length bare
      exact ⟨start, .refl, (populated.accepts_leaf_iff targetMem mem outline).2 ⟨accepts, bare⟩⟩
    · have bare := congrArg List.length bare
      have supertypeMem := (resolved.mem_of_inherits mem inherits).1
      obtain ⟨upper, reaches, same⟩ := resolved.exists_reaches_of_inherits mem isElement inherits
      exact ⟨upper, reaches,
        (populated.accepts_leaf_iff targetMem supertypeMem same).2 ⟨accepts, bare⟩⟩

/-- **A search for a type without type parameters is the test for raw types, but for the root.** In
every registry that calls lead to from the standard one, take a class or an interface without type
parameters, and a candidate over raw types of the registry whose raw type is a class or an interface
and which has no arguments or as many as this has type parameters. The search finds the one from the
candidate exactly when it accepts the raw type of the candidate; if it is the root, and the
candidate is an interface with arguments, this interface or one above it also has to declare a
supertype without arguments. -/
theorem ReachableFrom.acceptsThroughSupertypes_iff_rawAccepts {α : Type}
    (reached : ReachableFrom standard registry) {target : RawType} {candidate : Carrier α}
    (here there : Address) (targetHandle : registry.IsHandle target)
    (targetKind : target.isClass = true ∨ target.isInterface = true)
    (plain : target.parameters = [])
    (handles : ∀ node ∈ candidate.descriptor.nodes, registry.IsHandle node.raw)
    (kind : candidate.descriptor.raw.isClass = true ∨ candidate.descriptor.raw.isInterface = true)
    (arity : candidate.descriptor.arguments = []
      ∨ candidate.descriptor.arguments.length = candidate.descriptor.raw.parameters.length)
    (places : (candidate.withoutPayload here).PlacesAgree) :
    (Descriptor.leaf there target).acceptsThroughSupertypes registry.scope
        (candidate.withoutPayload here) = true
      ↔ target.accepts candidate.descriptor.raw = true
        ∧ (target.isTop = true → candidate.descriptor.raw.isInterface = true →
          candidate.descriptor.arguments ≠ [] →
            ∃ supertype, candidate.descriptor.raw.element.Inherits supertype
              ∧ supertype.arguments = []) := by
  have populated := reached.populated
  obtain ⟨wanted, rfl, -⟩ := RawType.exists_eq_ofDeclaration targetKind
  obtain ⟨source, isSource, sourceKind⟩ := RawType.exists_eq_ofDeclaration kind
  have wantedMem : wanted ∈ registry.declared := populated.isHandle_iff.1 targetHandle
  have mem : source ∈ registry.declared := by
    have mem := populated.isHandle_iff.1 (Descriptor.forall_nodes_iff.1 handles).1
    rwa [isSource] at mem
  have known : ∀ node ∈ (candidate.withoutPayload here).nodes, registry.IsHandle node.raw :=
    Descriptor.forall_nodes_iff.2 (Descriptor.forall_nodes_iff.1 handles)
  have isElement : (candidate.withoutPayload here).raw = .ofDeclaration source := isSource
  rw [reached.acceptsThroughSupertypes_leaf there wantedMem isElement known places]
  rw [isSource] at arity ⊢
  rw [populated.accepts_ofDeclaration_iff wantedMem mem]
  exact reached.isReachable.resolved.inherits_or_iff wantedMem mem sourceKind plain arity

/-- A definition of an interface with a type parameter that extends an interface of arrays. -/
def labelDefinition : Definition :=
  { name := "Label", isInterface := true, parameters := ["T"],
    interfaces := ["java.io.Serializable"] }

/-- An interface of arrays. -/
def serializable : Declaration :=
  .interface "java.io.Serializable" [] []

/-- The interface with a type parameter that extends it. -/
def label : Declaration :=
  .interface "Label" ["T"] [⟨serializable, []⟩]

/-- The definition is accepted. -/
theorem declared_define_label :
    (standard.define labelDefinition).2.declared = label :: standard.declared := by
  have accepted : standard.declaration labelDefinition = .ok label := by
    have sound : labelDefinition.fault? = none := by decide
    have new : standard.declared? labelDefinition.name = none :=
      declared?_standard_eq_none (by decide) (by decide)
    have found : standard.find "java.io.Serializable" = .ok (.ofDeclaration serializable) :=
      populated_standard.find_name
        (populated_standard.arrayInterface_mem _ (List.mem_cons_of_mem _ List.mem_cons_self))
    have above : interfaces standard.find labelDefinition = .ok [⟨serializable, []⟩] := by
      have bare : Signature.split? "java.io.Serializable" = some ("java.io.Serializable", []) := by
        decide
      have signature := Signature.ofText_of_split? bare
      have resolved : labelDefinition.resolveName standard.find "java.io.Serializable"
          = .ok (.plain (.ofDeclaration serializable)) := by
        rw [Definition.resolveName, found]
        rfl
      simp only [interfaces, labelDefinition, List.mapM_cons, List.mapM_nil, supertype, signature,
        Signature.resolve_applied]
      rw [← labelDefinition, resolved]
      rfl
    simp only [declaration, declarationBy, sound, contains, new, above]
    rfl
  rw [declared_define, accepted]
  rfl

/-- The interface of arrays that a label extends is found from a label of a marker for numbers. -/
theorem ReachableFrom.acceptsThroughSupertypes_iff_rawAccepts_label :
    let labels := (standard.define labelDefinition).2
    let target : RawType := .ofDeclaration serializable
    let marker : Descriptor := ⟨⟨1, []⟩, .ofDeclaration (.primitive .int), [], true⟩
    let candidate : Carrier Nat := ⟨⟨⟨2, []⟩, .ofDeclaration label, [marker], false⟩, 7⟩
    ReachableFrom standard labels
      ∧ labels.IsHandle target ∧ target.isInterface = true ∧ target.parameters = []
      ∧ (∀ node ∈ candidate.descriptor.nodes, labels.IsHandle node.raw)
      ∧ candidate.descriptor.raw.isInterface = true
      ∧ candidate.descriptor.arguments.length = candidate.descriptor.raw.parameters.length
      ∧ (candidate.withoutPayload ⟨3, []⟩).PlacesAgree
      ∧ (Descriptor.leaf ⟨4, []⟩ target).acceptsThroughSupertypes labels.scope
          (candidate.withoutPayload ⟨3, []⟩) = true := by
  intro labels target marker candidate
  have reached : ReachableFrom standard labels := .define .start _
  have populated := reached.populated
  have labelMem : label ∈ labels.declared := declared_define_label ▸ List.mem_cons_self
  have serializableMem : serializable ∈ labels.declared :=
    populated.arrayInterface_mem _ (List.mem_cons_of_mem _ List.mem_cons_self)
  have targetHandle : labels.IsHandle target := populated.isHandle_iff.2 serializableMem
  have handles : ∀ node ∈ candidate.descriptor.nodes, labels.IsHandle node.raw :=
    Descriptor.forall_nodes_iff.2 ⟨populated.isHandle_iff.2 labelMem,
      List.forall_mem_singleton.2 (Descriptor.forall_nodes_iff.2
        ⟨populated.isHandle_primitive .int, nofun⟩)⟩
  have places : (candidate.withoutPayload ⟨3, []⟩).PlacesAgree := by
    have isMarker : ∀ node ∈ (candidate.withoutPayload ⟨3, []⟩).nodes,
        node.identity = true → node = marker :=
      Descriptor.forall_nodes_iff.2 ⟨nofun, List.forall_mem_singleton.2
        (Descriptor.forall_nodes_iff.2 ⟨fun _ => rfl, nofun⟩)⟩
    intro left leftIn right rightIn leftMarker rightMarker _
    rw [isMarker left leftIn leftMarker, isMarker right rightIn rightMarker]
  have accepts : target.accepts (.ofDeclaration label) = true := by
    refine (populated.accepts_ofDeclaration_iff serializableMem labelMem).2 ?_
    exact populated.accepts_of_mem_parents serializableMem labelMem List.mem_cons_self
      ((populated.accepts_iff serializableMem serializableMem).2 (.inl rfl))
  exact ⟨reached, targetHandle, rfl, rfl, handles, rfl, rfl, places,
    (reached.acceptsThroughSupertypes_iff_rawAccepts ⟨3, []⟩ ⟨4, []⟩ targetHandle (.inr rfl) rfl
      handles (.inr rfl) (.inr rfl) places).2 ⟨accepts, nofun⟩⟩

/-- The root is not found from a box of numbers, although it accepts boxes: these extend nothing. -/
theorem acceptsThroughSupertypes_root_box :
    let root : RawType := .ofDeclaration (.top "java.lang.Object")
    let int : Descriptor := .leaf ⟨0, []⟩ (.ofDeclaration (.primitive .int))
    let candidate : Descriptor := ⟨⟨1, []⟩, .ofDeclaration box, [int], false⟩
    ReachableFrom standard crates
      ∧ (crates.lookup "java.lang.Object").1 = .ok root ∧ root.parameters = []
      ∧ (crates.lookup "Box").1 = .ok candidate.raw
      ∧ (crates.lookup "int").1 = .ok int.raw
      ∧ candidate.arguments.length = candidate.raw.parameters.length
      ∧ int.arguments.length = int.raw.parameters.length
      ∧ root.accepts candidate.raw = true
      ∧ (Descriptor.leaf ⟨2, []⟩ root).acceptsThroughSupertypes crates.scope candidate = false := by
  intro root int candidate
  have reached : ReachableFrom standard crates := .define (.define .start _) _
  have populated := reached.populated
  have boxMem : box ∈ crates.declared :=
    declared_crates ▸ List.mem_cons_of_mem _ List.mem_cons_self
  have rootMem : .top "java.lang.Object" ∈ crates.declared := by
    have mem := populated.top_mem
    rwa [populated.topName_eq] at mem
  refine ⟨reached, populated.find_name rootMem, rfl, populated.find_name boxMem,
    populated.find_primitive .int, rfl, rfl, ?_, ?_⟩
  · exact (populated.accepts_ofDeclaration_iff rootMem boxMem).2
      (populated.accepts_of_isTop rootMem boxMem rfl rfl)
  · have refused : (Descriptor.leaf ⟨2, []⟩ root).accepts candidate = false :=
      eq_false_of_ne_true fun accepts => nomatch (Descriptor.accepts_leaf_iff.1 accepts).2
    have above : candidate.knownSupertypes crates.scope = [] := rfl
    rw [Descriptor.acceptsThroughSupertypes, Descriptor.acceptsAbove, refused, above,
      List.any_nil, if_neg Bool.false_ne_true, List.append_nil, Descriptor.acceptsAbove]
    rfl

end Registry

end GenericTypes
