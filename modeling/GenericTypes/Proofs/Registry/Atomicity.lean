import GenericTypes.Proofs.Registry.Transparency

/-! # Definitions as all or nothing

A definition may be rejected at any of its names, after others have been looked up. All that is left
of it then is what these look-ups remember, and that cannot be seen. A definition that is accepted
adds its type and takes nothing back. Definitions that are loaded together are made one by one, so
the first that is rejected leaves what was defined before it. -/

namespace GenericTypes

namespace Registry

variable {registry : Registry} {definition : Definition} {declaration : Declaration}

/-! ## What callers see -/

/-- Whether two registries look the same: by the names and the number of their types, by what they
contain, by what names stand for in them, and by the answers to any calls that may follow. -/
structure LooksSame (before after : Registry) : Prop where
  /-- The same names are declared. -/
  names_eq : after.names = before.names
  /-- As many types are declared. -/
  size_eq : after.size = before.size
  /-- The same names are contained. -/
  contains_eq : ∀ name, after.contains name = before.contains name
  /-- Every look-up gives the same. -/
  lookup_eq : ∀ name, (after.lookup name).1 = (before.lookup name).1
  /-- All calls that follow are answered alike. -/
  answers_eq : ∀ calls, after.answers calls = before.answers calls

/-- Whether a registry has gained one type, which is declared as it was defined, and has kept all it
had. -/
structure Gains (definition : Definition) (declaration : Declaration) (before after : Registry) :
    Prop where
  /-- The type has the name of the definition. -/
  name_eq : declaration.name = definition.name
  /-- It is an interface or a class as the definition says. -/
  kind_eq : declaration.isInterface = definition.isInterface
    ∧ declaration.isClass = !definition.isInterface
  /-- It has the type parameters of the definition. -/
  parameters_eq : declaration.parameters = definition.parameters
  /-- The name was free. -/
  name_notMem : definition.name ∉ before.names
  /-- The name has been added to the names, and no other one. -/
  names_perm : after.names.Perm (definition.name :: before.names)
  /-- There is one more type. -/
  size_eq : after.size = before.size + 1
  /-- The name is contained, and otherwise what was contained. -/
  contains_eq : ∀ name, after.contains name = (name == definition.name || before.contains name)
  /-- Looking the name up gives the type. -/
  lookup_name : (after.lookup definition.name).1 = .ok (.ofDeclaration declaration)
  /-- What could be looked up still can be, with the same result. -/
  lookup_eq : ∀ name raw, (before.lookup name).1 = .ok raw → (after.lookup name).1 = .ok raw

/-- Registries that agree look the same. -/
theorem Agree.looksSame {before after : Registry} (agree : Agree before after) :
    LooksSame before after where
  names_eq := agree.names_eq.symm
  size_eq := agree.size_eq.symm
  contains_eq := fun name => by rw [contains, contains, agree.declared?_eq]
  lookup_eq := fun name => (congrFun agree.find_eq name).symm
  answers_eq := fun calls => (agree.answers calls).symm

/-- The names of the declared types, in another order. -/
theorem names_perm (registry : Registry) :
    registry.names.Perm (registry.declared.map Declaration.name) :=
  List.mergeSort_perm _ _

/-- A name is contained exactly if it is one of the names. -/
theorem contains_iff_mem_names {name : String} :
    registry.contains name = true ↔ name ∈ registry.names := by
  rw [(names_perm registry).mem_iff, contains, declared?, List.find?_isSome, List.mem_map]
  simp only [beq_iff_eq]

/-! ## One definition -/

namespace WellFormed

/-- A definition that is rejected leaves nothing that can be seen. -/
theorem looksSame_define (wellFormed : registry.WellFormed) {cause : RegistryError}
    (rejected : registry.declaration definition = .error cause) :
    LooksSame registry (registry.define definition).2 := by
  have declared : (registry.define definition).2.declared = registry.declared := by
    rw [declared_define, rejected]
    rfl
  have agree : Agree registry (registry.define definition).2 :=
    ⟨wellFormed, wellFormed.define definition, (topName_define registry definition).symm,
      declared.symm⟩
  exact agree.looksSame

/-- A definition that is accepted adds its type and takes nothing back. -/
theorem gains_define (wellFormed : registry.WellFormed)
    (accepted : registry.declaration definition = .ok declaration) :
    Gains definition declaration registry (registry.define definition).2 := by
  obtain ⟨-, new, interfaces, -, shape⟩ := declaration_cases accepted
  have name_eq := name_of_declaration accepted
  have declared : (registry.define definition).2.declared = declaration :: registry.declared := by
    rw [declared_define, accepted]
    rfl
  have free : registry.contains definition.name = false := by
    rw [contains, new]
    rfl
  refine ⟨name_eq, ?_, ?_, ?_, ?_, ?_, ?_, ?_, ?_⟩
  · rcases shape with ⟨kind, -, rfl⟩ | ⟨kind, superclass, -, rfl⟩
    · rw [kind]
      exact ⟨rfl, rfl⟩
    · rw [kind]
      exact ⟨rfl, rfl⟩
  · rcases shape with ⟨-, -, rfl⟩ | ⟨-, superclass, -, rfl⟩
    · rfl
    · rfl
  · rw [← contains_iff_mem_names, free]
    exact Bool.false_ne_true
  · refine (names_perm _).trans ?_
    rw [declared, List.map_cons, name_eq]
    exact (names_perm registry).symm.cons _
  · rw [size, declared, List.length_cons, size]
  · intro name
    by_cases same : name = definition.name
    · subst same
      rw [contains, wellFormed.declared?_define accepted, beq_self_eq_true]
      rfl
    · rw [contains, declared?_define_of_ne (Ne.symm same), beq_false_of_ne same, Bool.false_or,
        contains]
  · rw [← name_eq]
    exact (wellFormed.define definition).find_name (declared ▸ List.mem_cons_self)
  · intro name raw found
    exact wellFormed.find_define definition found

end WellFormed

/-! ## Several definitions -/

/-- The registry after definitions were made one by one, whether they were accepted or not. -/
def defineEach (registry : Registry) (definitions : List Definition) : Registry :=
  definitions.foldl (fun registry definition => (registry.define definition).2) registry

/-- Definitions one by one keep a registry well-formed. -/
theorem WellFormed.defineEach (wellFormed : registry.WellFormed) (definitions : List Definition) :
    (registry.defineEach definitions).WellFormed := by
  induction definitions generalizing registry with
  | nil => exact wellFormed
  | cons definition rest ih => exact ih (wellFormed.define definition)

/-- Whether all of some definitions are accepted when they are made in order, and a further one is
rejected then. -/
structure StopsAt (registry : Registry) (before : List Definition) (failing : Definition)
    (cause : RegistryError) : Prop where
  /-- Each of the definitions is accepted. -/
  accepted : ∀ earlier definition later, before = earlier ++ definition :: later →
    ∃ declaration, ((registry.defineEach earlier).define definition).1 = .ok declaration
  /-- The further one is rejected. -/
  rejected : ((registry.defineEach before).define failing).1 = .error cause

/-- Definitions that are made in order and not all accepted stop at the first that is rejected. -/
theorem defineAll_cases {definitions : List Definition} {error : LoadError}
    (failed : (registry.defineAll definitions).1 = .error error) :
    ∃ before failing after cause, definitions = before ++ failing :: after
      ∧ error = .rejected failing.name cause ∧ StopsAt registry before failing cause
      ∧ (registry.defineAll definitions).2 = ((registry.defineEach before).define failing).2 := by
  induction definitions generalizing registry with
  | nil => cases failed
  | cons first rest ih =>
    rw [defineAll] at failed ⊢
    cases defined : registry.define first with
    | mk result changed =>
      rw [defined] at failed
      cases result with
      | error cause =>
        cases failed
        refine ⟨[], first, rest, cause, rfl, rfl, ⟨?_, congrArg Prod.fst defined⟩,
          (congrArg Prod.snd defined).symm⟩
        intro earlier definition later split
        exact absurd split.symm (by simp)
      | ok declaration =>
        obtain ⟨before, failing, after, cause, rfl, rfl, stops, left⟩ := ih failed
        have changed_eq : (registry.define first).2 = changed := congrArg Prod.snd defined
        refine ⟨first :: before, failing, after, cause, rfl, rfl, ⟨?_, ?_⟩, ?_⟩
        · intro earlier definition later split
          cases earlier with
          | nil =>
            cases split
            exact ⟨declaration, congrArg Prod.fst defined⟩
          | cons head earlier =>
            obtain ⟨rfl, tail⟩ := List.cons_eq_cons.1 split
            rw [defineEach, List.foldl_cons, changed_eq]
            exact stops.accepted earlier definition later tail
        · rw [defineEach, List.foldl_cons, changed_eq]
          exact stops.rejected
        · rw [defineEach, List.foldl_cons, changed_eq]
          exact left

/-- Loading a text that holds no definitions leaves the registry as it is; loading one that stops at
a definition leaves what the definitions before it leave, as far as can be seen. -/
theorem WellFormed.loadJson_cases (wellFormed : registry.WellFormed) {text : String}
    {error : LoadError} (failed : (registry.loadJson text).1 = .error error) :
    (error = .unparsable ∧ (Json.ofText? text).bind Definition.listOfJson? = none
        ∧ (registry.loadJson text).2 = registry)
      ∨ ∃ before failing after cause,
        (Json.ofText? text).bind Definition.listOfJson? = some (before ++ failing :: after)
          ∧ error = .rejected failing.name cause ∧ StopsAt registry before failing cause
          ∧ LooksSame (registry.defineEach before) (registry.loadJson text).2 := by
  unfold loadJson at failed ⊢
  cases read : (Json.ofText? text).bind Definition.listOfJson? with
  | none =>
    rw [read] at failed
    cases failed
    exact .inl ⟨rfl, rfl, rfl⟩
  | some definitions =>
    rw [read] at failed
    have failed : (registry.defineAll definitions).1.map (fun _ => definitions.length)
        = .error error := failed
    cases result : (registry.defineAll definitions).1 with
    | ok done =>
      rw [result] at failed
      cases failed
    | error other =>
      rw [result] at failed
      cases failed
      obtain ⟨before, failing, after, cause, rfl, same, stops, left⟩ := defineAll_cases result
      refine .inr ⟨before, failing, after, cause, rfl, same, stops, ?_⟩
      show LooksSame _ (registry.defineAll _).2
      rw [left]
      exact (wellFormed.defineEach before).looksSame_define
        ((define_fst _ failing).symm.trans stops.rejected)

/-- **A definition is made as a whole or not at all, and definitions only add.** In every registry
that calls lead to, a definition that is rejected for whatever reason leaves a registry that looks
the same, and one that is accepted adds its type and keeps what was there. When a text of
definitions is loaded and one of them is rejected, the registry looks as after the definitions
before it, made one by one. -/
theorem IsReachable.define_or_looksSame (reached : registry.IsReachable) :
    (∀ definition cause, (registry.define definition).1 = .error cause →
        LooksSame registry (registry.define definition).2)
      ∧ (∀ definition declaration, (registry.define definition).1 = .ok declaration →
        Gains definition declaration registry (registry.define definition).2)
      ∧ ∀ text error, (registry.loadJson text).1 = .error error →
        (error = .unparsable ∧ (Json.ofText? text).bind Definition.listOfJson? = none
            ∧ (registry.loadJson text).2 = registry)
          ∨ ∃ before failing after cause,
            (Json.ofText? text).bind Definition.listOfJson? = some (before ++ failing :: after)
              ∧ error = .rejected failing.name cause ∧ StopsAt registry before failing cause
              ∧ LooksSame (registry.defineEach before) (registry.loadJson text).2 := by
  have wellFormed := reached.wellFormed
  refine ⟨?_, ?_, fun text error failed => wellFormed.loadJson_cases failed⟩
  · intro definition cause rejected
    rw [define_fst] at rejected
    exact wellFormed.looksSame_define rejected
  · intro definition declaration accepted
    rw [define_fst] at accepted
    exact wellFormed.gains_define accepted

/-- A class whose superclass is an array type with an argument is rejected after the array type has
been looked up. The registry with a root alone looks the same afterwards; it gains a class that is
defined, and it looks as after one definition when the second of two is a duplicate. -/
theorem IsReachable.define_or_looksSame_duplicate :
    let registry := ofTop "Root"
    let bad : Definition := { name := "Bad", superclass := some "[LRoot;<Root>" }
    let plain : Declaration := .ordinary "A" [] ⟨.top "Root", []⟩ []
    let text := "[\x7b\"name\":\"A\"\x7d,\x7b\"name\":\"A\"\x7d]"
    registry.IsReachable
      ∧ (registry.define bad).1 = .error (.invalidDefinition "Bad" (.wrongArity "[LRoot;" 0 1))
      ∧ LooksSame registry (registry.define bad).2
      ∧ (registry.define { name := "A" }).1 = .ok plain
      ∧ Gains { name := "A" } plain registry (registry.define { name := "A" }).2
      ∧ (registry.loadJson text).1 = .error (.rejected "A" (.duplicateType "A"))
      ∧ LooksSame (registry.insert plain) (registry.loadJson text).2 := by
  intro registry bad plain text
  have reached : registry.IsReachable := ⟨_, .ofTop "Root", .start⟩
  obtain ⟨rejects, accepts, stops⟩ := reached.define_or_looksSame
  have rejected : (registry.define bad).1
      = .error (.invalidDefinition "Bad" (.wrongArity "[LRoot;" 0 1)) := by
    have outer : Signature.split? "[LRoot;<Root>" = some ("[LRoot;", ["Root"]) := by decide
    have inner : Signature.split? "Root" = some ("Root", []) := by decide
    have signature : Signature.ofText "[LRoot;<Root>"
        = .applied "[LRoot;" [.applied "Root" []] := by
      rw [Signature.ofText_of_split? outer, List.map_cons, Signature.ofText_of_split? inner]
      rfl
    have above : (ofTop "Root").superclass (ofTop "Root").find bad
        = .error (.invalidDefinition "Bad" (.wrongArity "[LRoot;" 0 1)) := by
      simp only [superclass, bad, supertype, signature, Signature.resolve_applied]
      rfl
    have sound : bad.fault? = none := by decide
    have new : (ofTop "Root").declared? bad.name = none := by decide
    rw [define_fst]
    simp only [registry, declaration, declarationBy, sound, contains, new, above]
    rfl
  have defined : registry.define { name := "A" } = (.ok plain, registry.insert plain) :=
    define_plainClass ⟨by decide, by decide⟩ (by decide)
  have read : (Json.ofText? text).bind Definition.listOfJson?
      = some [{ name := "A" }, { name := "A" }] := by
    have tokens : Json.tokens? text.toList
        = some [.openBracket, .openBrace, .string (some "name"), .colon, .string (some "A"),
          .closeBrace, .comma, .openBrace, .string (some "name"), .colon, .string (some "A"),
          .closeBrace, .closeBracket] := by
      simp [text, Json.tokens?, Json.token?, Json.isSpace, Json.stringItems?, Json.charsOfItems?]
    have value : Json.ofText? text = some (.array [.object [(some "name", .string (some "A"))],
        .object [(some "name", .string (some "A"))]]) := by
      rw [Json.ofText?, tokens]
      simp [Json.value?, Json.items?, Json.members?]
    rw [value]
    decide
  have failed : (registry.loadJson text).1 = .error (.rejected "A" (.duplicateType "A")) := by
    have duplicate : ((registry.insert plain).define { name := "A" }).1
        = .error (.duplicateType "A") := by
      rw [define_fst]
      rfl
    rw [loadJson, read]
    simp only [defineAll, defined]
    cases second : (registry.insert plain).define { name := "A" } with
    | mk result later =>
      rw [second] at duplicate
      subst duplicate
      rfl
  refine ⟨reached, rejected, rejects _ _ rejected, congrArg Prod.fst defined,
    accepts _ _ (congrArg Prod.fst defined), failed, ?_⟩
  rcases stops text _ failed with
    ⟨wrong, -⟩ | ⟨before, failing, after, cause, split, -, stops, same⟩
  · cases wrong
  · have split := Option.some.inj (read.symm.trans split)
    rcases before with _ | ⟨first, _ | ⟨second, rest⟩⟩
    · -- the first of the two is accepted
      obtain ⟨rfl, -⟩ := List.cons_eq_cons.1 split
      have rejected := stops.rejected
      rw [defineEach, List.foldl_nil, defined] at rejected
      cases rejected
    · obtain ⟨rfl, -⟩ := List.cons_eq_cons.1 split
      rwa [defineEach, List.foldl_cons, List.foldl_nil, defined] at same
    · have lengths := congrArg List.length split
      simp at lengths

end Registry

end GenericTypes
