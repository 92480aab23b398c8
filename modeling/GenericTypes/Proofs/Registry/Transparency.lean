import GenericTypes.Proofs.Registry.Growth

/-! # Remembered array types make no difference

A registry answers a look-up from the declared types and from the array types that it remembers. The
array types are remembered at one time and served after any number of definitions, so they could
have become wrong. They have not: a look-up in a registry that calls lead to gives what
`lookUpAmong` gives, which knows the declared types and nothing else. So two registries with the
same declared types cannot be told apart by any calls, and in particular a registry cannot be told
apart from itself after a look-up. -/

namespace GenericTypes

/-- The name under which the element of an array type is looked up. -/
def ArrayElement.lookedUpAs? : ArrayElement → Option String
  | primitive code => (Primitive.ofCode? code).map Primitive.name
  | reference name => some name

/-! ## Looking up without a memory -/

/-- The brackets that a name starts with. -/
def leadingBrackets (name : String) : Nat :=
  (name.toList.takeWhile (· == '[')).length

/-- A name without a leading bracket has no brackets in front. -/
theorem leadingBrackets_eq_zero {name : String} (plain : name.toList.head? ≠ some '[') :
    leadingBrackets name = 0 := by
  rw [leadingBrackets]
  cases chars : name.toList with
  | nil => rfl
  | cons c rest =>
    have other : c ≠ '[' := fun same => plain (by rw [chars, same]; rfl)
    rw [List.takeWhile_cons_of_neg (by simpa using other)]
    rfl

/-- An array name has brackets in front. -/
theorem leadingBrackets_pos {name : String} {array : ArrayName}
    (read : ArrayName.ofText? name = some array) : 0 < leadingBrackets name := by
  unfold ArrayName.ofText? at read
  dsimp only at read
  split at read
  · cases read
  · rename_i some
    exact List.length_pos_iff.2 (by simpa using some)

/-- What a name stands for if nothing is known but the declared types. An array name is taken apart
and its element is looked up in the same way. -/
def lookUpAmong (declared? : String → Option Declaration) (name : String) :
    Except RegistryError RawType :=
  match declared? name with
  | some declaration => .ok (.ofDeclaration declaration)
  | none =>
    match _read : ArrayName.ofText? name with
    | none => .error (.typeNotFound name)
    | some ⟨.primitive code, dimensions⟩ =>
      match Primitive.ofCode? code with
      | none => .error (.typeNotFound name)
      | some type =>
        match lookUpAmong declared? type.name with
        | .ok component => .ok (component.arrayOf dimensions)
        | .error _ => .error (.typeNotFound name)
    | some ⟨.reference element, dimensions⟩ =>
      match lookUpAmong declared? element with
      | .ok component =>
        if component.isPrimitive then .error (.typeNotFound name)
        else .ok (component.arrayOf dimensions)
      | .error _ => .error (.typeNotFound name)
termination_by leadingBrackets name
decreasing_by
  · rw [leadingBrackets_eq_zero type.head?_name]
    exact leadingBrackets_pos _read
  · rw [leadingBrackets_eq_zero (ArrayName.text_of_ofText? _read).2.1.head?_ne]
    exact leadingBrackets_pos _read

/-- A name without a leading bracket stands for a declared type or for nothing. -/
theorem lookUpAmong_of_head?_ne {name : String} (declared? : String → Option Declaration)
    (plain : name.toList.head? ≠ some '[') :
    lookUpAmong declared? name = match declared? name with
      | some declaration => .ok (.ofDeclaration declaration)
      | none => .error (.typeNotFound name) := by
  rw [lookUpAmong]
  cases declared? name with
  | some declaration => rfl
  | none =>
    dsimp only
    split
    · rfl
    · rename_i read
      rw [ArrayName.ofText?_eq_none plain] at read
      cases read
    · rename_i read
      rw [ArrayName.ofText?_eq_none plain] at read
      cases read

namespace Registry

variable {registry left right : Registry} {name : String}

/-- What an array name describes is its element wrapped into its dimensions. -/
theorem array?_eq_map {array : ArrayName} (read : ArrayName.ofText? name = some array) :
    registry.array? name
      = (registry.element? array.element).map fun element => ⟨element, array.dimensions⟩ := by
  rw [array?, read, Option.bind_eq_bind, Option.bind_some]
  cases registry.element? array.element <;> rfl

/-- The declared types alone give what a well-formed registry finds. -/
theorem WellFormed.lookUpAmong_eq_find (wellFormed : registry.WellFormed) (name : String) :
    lookUpAmong registry.declared? name = registry.find name := by
  rw [wellFormed.find_eq, resolve?, lookUpAmong]
  cases registry.declared? name with
  | some declaration => rfl
  | none =>
    dsimp only
    split
    · rename_i unread
      rw [array?, unread]
      rfl
    · rename_i code dimensions read
      rw [array?_eq_map read, element?]
      cases Primitive.ofCode? code with
      | none => rfl
      | some type =>
        rw [Option.bind_some]
        dsimp only
        rw [lookUpAmong_of_head?_ne _ type.head?_name]
        cases registry.declared? type.name with
        | none => rfl
        | some declaration =>
          exact congrArg Except.ok (congrArg (RawType.mk declaration) (Nat.zero_add dimensions))
    · rename_i element dimensions read
      have plain := (ArrayName.text_of_ofText? read).2.1.head?_ne
      rw [array?_eq_map read, element?, lookUpAmong_of_head?_ne _ plain]
      cases registry.declared? element with
      | none => rfl
      | some declaration =>
        have kind : (RawType.ofDeclaration declaration).isPrimitive = declaration.isPrimitive := rfl
        dsimp only
        rw [kind, Option.filter_some]
        cases declaration.isPrimitive with
        | true => rfl
        | false =>
          exact congrArg Except.ok (congrArg (RawType.mk declaration) (Nat.zero_add dimensions))

/-! ## Calls -/

/-- What a registry can be told or asked. -/
inductive Call where
  /-- A definition. -/
  | define (definition : Definition)
  /-- A text of definitions. -/
  | loadJson (text : String)
  /-- A file of definitions, missing if it could not be read. -/
  | loadFile (content : Option String)
  /-- A look-up. -/
  | lookup (name : String)
  /-- Whether a type is declared under a name. -/
  | contains (name : String)
  /-- The number of declared types. -/
  | size
  /-- The names of the declared types. -/
  | names
  /-- The root. -/
  | top
  /-- The class that wraps a primitive type. -/
  | box (raw : RawType)
  /-- The primitive type that a class wraps. -/
  | unbox (raw : RawType)
  /-- The debug text. -/
  | debugText

/-- What a registry answers. -/
inductive Answer where
  /-- The declared type or why there is none. -/
  | defined (result : Except RegistryError Declaration)
  /-- How many types have been loaded or why not all. -/
  | loaded (result : Except LoadError Nat)
  /-- What a name stands for. -/
  | found (result : Except RegistryError RawType)
  /-- A truth value. -/
  | whether (value : Bool)
  /-- A number of types. -/
  | count (value : Nat)
  /-- The names of types. -/
  | named (names : List String)
  /-- A type that may be missing. -/
  | converted (raw : Option RawType)
  /-- A text. -/
  | shown (text : String)

/-- The answer to a call, and the registry after it. -/
def call (registry : Registry) : Call → Answer × Registry
  | .define definition => (registry.define definition).map .defined id
  | .loadJson text => (registry.loadJson text).map .loaded id
  | .loadFile content => (registry.loadFile content).map .loaded id
  | .lookup name => (registry.lookup name).map .found id
  | .contains name => (.whether (registry.contains name), registry)
  | .size => (.count registry.size, registry)
  | .names => (.named registry.names, registry)
  | .top => (.converted registry.top, registry)
  | .box raw => (.converted (registry.box? raw), registry)
  | .unbox raw => (.converted (registry.unbox? raw), registry)
  | .debugText => (.shown registry.debugText, registry)

/-- The answers to calls that are made one after the other. -/
def answers (registry : Registry) : List Call → List Answer
  | [] => []
  | call :: calls => (registry.call call).1 :: (registry.call call).2.answers calls

/-! ## Registries that cannot be told apart -/

/-- Whether well-formed registries differ at most in the array types that they remember. -/
structure Agree (left right : Registry) : Prop where
  /-- The first registry is well-formed. -/
  left_wellFormed : left.WellFormed
  /-- The second registry is well-formed. -/
  right_wellFormed : right.WellFormed
  /-- They have the same root. -/
  topName_eq : left.topName = right.topName
  /-- They have declared the same types in the same order. -/
  declared_eq : left.declared = right.declared

namespace Agree

/-- A well-formed registry agrees with itself after a look-up. -/
theorem remember (wellFormed : registry.WellFormed) (name : String) :
    Agree registry (registry.remember name) :=
  ⟨wellFormed, wellFormed.remember name, (topName_remember registry name).symm,
    (declared_remember registry name).symm⟩

/-- In such registries every name is declared alike. -/
theorem declared?_eq (agree : Agree left right) : left.declared? = right.declared? := by
  funext name
  rw [declared?, declared?, agree.declared_eq]

/-- In such registries every name stands for the same type. -/
theorem find_eq (agree : Agree left right) : left.find = right.find := by
  funext name
  rw [← agree.left_wellFormed.lookUpAmong_eq_find, ← agree.right_wellFormed.lookUpAmong_eq_find,
    agree.declared?_eq]

/-- Such registries have as many types. -/
theorem size_eq (agree : Agree left right) : left.size = right.size := by
  rw [size, size, agree.declared_eq]

/-- Such registries have types of the same names. -/
theorem names_eq (agree : Agree left right) : left.names = right.names := by
  rw [names, names, agree.declared_eq]

/-- Such registries have the same debug text. -/
theorem debugText_eq (agree : Agree left right) : left.debugText = right.debugText := by
  unfold debugText
  rw [agree.size_eq, agree.topName_eq]

/-- Such registries agree after the same look-up in both. -/
theorem remember_both (agree : Agree left right) (name : String) :
    Agree (left.remember name) (right.remember name) :=
  ⟨agree.left_wellFormed.remember name, agree.right_wellFormed.remember name,
    by rw [topName_remember, topName_remember, agree.topName_eq],
    by rw [declared_remember, declared_remember, agree.declared_eq]⟩

/-- To such registries a definition means the same. -/
theorem declaration_eq (agree : Agree left right) (definition : Definition) :
    left.declaration definition = right.declaration definition := by
  simp only [declaration, declarationBy, superclass, contains, agree.declared?_eq,
    agree.topName_eq, agree.find_eq]

/-- Such registries answer a definition alike, and agree afterwards. -/
theorem define (agree : Agree left right) (definition : Definition) :
    (left.define definition).1 = (right.define definition).1
      ∧ Agree (left.define definition).2 (right.define definition).2 := by
  refine ⟨?_, agree.left_wellFormed.define definition, agree.right_wellFormed.define definition,
    ?_, ?_⟩
  · rw [define_fst, define_fst, agree.declaration_eq]
  · rw [topName_define, topName_define, agree.topName_eq]
  · rw [declared_define, declared_define, agree.declaration_eq, agree.declared_eq]

/-- Such registries answer several definitions alike, and agree afterwards. -/
theorem defineAll (agree : Agree left right) (definitions : List Definition) :
    (left.defineAll definitions).1 = (right.defineAll definitions).1
      ∧ Agree (left.defineAll definitions).2 (right.defineAll definitions).2 := by
  induction definitions generalizing left right with
  | nil => exact ⟨rfl, agree⟩
  | cons definition rest ih =>
    obtain ⟨same, agree⟩ := agree.define definition
    rw [Registry.defineAll, Registry.defineAll]
    rcases leftDefined : left.define definition with ⟨result, leftLater⟩
    rcases rightDefined : right.define definition with ⟨other, rightLater⟩
    rw [leftDefined, rightDefined] at same agree
    cases same
    cases result with
    | error cause => exact ⟨rfl, agree⟩
    | ok declaration => exact ih agree

/-- Such registries answer a text of definitions alike, and agree afterwards. -/
theorem loadJson (agree : Agree left right) (text : String) :
    (left.loadJson text).1 = (right.loadJson text).1
      ∧ Agree (left.loadJson text).2 (right.loadJson text).2 := by
  unfold Registry.loadJson
  cases (Json.ofText? text).bind Definition.listOfJson? with
  | none => exact ⟨rfl, agree⟩
  | some definitions =>
    obtain ⟨same, agree⟩ := agree.defineAll definitions
    exact ⟨congrArg (Except.map fun _ => definitions.length) same, agree⟩

/-- **Such registries answer every call alike, and agree afterwards.** -/
theorem call (agree : Agree left right) (call : Call) :
    (left.call call).1 = (right.call call).1 ∧ Agree (left.call call).2 (right.call call).2 := by
  have find_eq := agree.find_eq
  cases call with
  | define definition =>
    obtain ⟨same, agree⟩ := agree.define definition
    exact ⟨congrArg Answer.defined same, agree⟩
  | loadJson text =>
    obtain ⟨same, agree⟩ := agree.loadJson text
    exact ⟨congrArg Answer.loaded same, agree⟩
  | loadFile content =>
    cases content with
    | none => exact ⟨rfl, agree⟩
    | some text =>
      obtain ⟨same, agree⟩ := agree.loadJson text
      exact ⟨congrArg Answer.loaded same, agree⟩
  | lookup name =>
    exact ⟨congrArg Answer.found (congrFun find_eq name), agree.remember_both name⟩
  | contains name =>
    have same : left.contains name = right.contains name := by
      rw [contains, contains, agree.declared?_eq]
    exact ⟨congrArg Answer.whether same, agree⟩
  | size => exact ⟨congrArg Answer.count agree.size_eq, agree⟩
  | names => exact ⟨congrArg Answer.named agree.names_eq, agree⟩
  | top =>
    have same : left.top = right.top := by rw [top, top, agree.topName_eq]
    exact ⟨congrArg (Answer.converted ∘ some) same, agree⟩
  | box raw =>
    have same : left.box? raw = right.box? raw := by rw [box?, box?, find_eq]
    exact ⟨congrArg Answer.converted same, agree⟩
  | unbox raw =>
    have same : left.unbox? raw = right.unbox? raw := by rw [unbox?, unbox?, find_eq]
    exact ⟨congrArg Answer.converted same, agree⟩
  | debugText =>
    exact ⟨congrArg Answer.shown agree.debugText_eq, agree⟩

/-- Such registries cannot be told apart by any calls. -/
theorem answers (agree : Agree left right) (calls : List Call) :
    left.answers calls = right.answers calls := by
  induction calls generalizing left right with
  | nil => rfl
  | cons call calls ih =>
    obtain ⟨same, agree⟩ := agree.call call
    rw [Registry.answers, Registry.answers, same, ih agree]

end Agree

/-! ## The main theorem -/

/-- An array name describes an array of the type that is declared under the name of its element, if
that is no primitive type. -/
theorem array?_of_lookedUpAs {array : ArrayName} {element : String} {declaration : Declaration}
    (read : ArrayName.ofText? name = some array)
    (named : array.element.lookedUpAs? = some element)
    (declared : registry.declared? element = some declaration)
    (notPrimitive : declaration.isPrimitive = false) :
    registry.array? name = some ⟨declaration, array.dimensions⟩ := by
  rw [array?_eq_map read]
  cases kind : array.element with
  | primitive code =>
    rw [kind] at named
    obtain ⟨type, letter, rfl⟩ := Option.map_eq_some_iff.1 named
    rw [element?, letter, Option.bind_some, declared]
    rfl
  | reference reference =>
    rw [kind] at named
    cases named
    rw [element?, declared, Option.filter_some, notPrimitive]
    rfl

/-- An array name that is not found is found once its element has been defined. -/
theorem WellFormed.find_define_of_lookedUpAs (wellFormed : registry.WellFormed) {array : ArrayName}
    {definition : Definition} {declaration : Declaration} {cause : RegistryError}
    (read : ArrayName.ofText? name = some array)
    (named : array.element.lookedUpAs? = some definition.name)
    (failed : registry.find name = .error cause)
    (accepted : registry.declaration definition = .ok declaration) :
    (registry.define definition).2.find name = .ok ⟨declaration, array.dimensions⟩ := by
  obtain ⟨sound, -, interfaces, -, shape⟩ := declaration_cases accepted
  have notPrimitive : declaration.isPrimitive = false := by
    rcases shape with ⟨-, -, rfl⟩ | ⟨-, superclass, -, rfl⟩ <;> rfl
  have undeclared : registry.declared? name = none := by
    cases declared : registry.declared? name with
    | none => rfl
    | some other =>
      rw [wellFormed.find_eq, resolve?, declared] at failed
      cases failed
  have different : definition.name ≠ name := by
    rintro rfl
    rw [ArrayName.ofText?_eq_none (Definition.isLegal_of_fault? sound).head?_ne] at read
    cases read
  rw [(wellFormed.define definition).find_eq, resolve?, declared?_define_of_ne different,
    undeclared, array?_of_lookedUpAs read named (wellFormed.declared?_define accepted) notPrimitive]

/-- **The array types that a registry remembers make no difference.** In every registry that calls
lead to, a look-up gives what the declared types alone give. So no calls after a look-up are
answered in another way than without it, and whatever else looks names up in the registry finds the
same. A look-up that fails leaves no trace, and an array name that is not found is found as soon as
its element has been defined. -/
theorem IsReachable.lookup_eq_lookUpAmong (reached : registry.IsReachable) :
    (∀ name, (registry.lookup name).1 = lookUpAmong registry.declared? name)
      ∧ (∀ name calls, (registry.lookup name).2.answers calls = registry.answers calls
        ∧ (registry.lookup name).2.scope = registry.scope)
      ∧ (∀ name cause, (registry.lookup name).1 = .error cause →
        cause = .typeNotFound name ∧ (registry.lookup name).2 = registry)
      ∧ ∀ name array definition declaration cause,
        ArrayName.ofText? name = some array →
        array.element.lookedUpAs? = some definition.name →
        (registry.lookup name).1 = .error cause →
        ((registry.lookup name).2.define definition).1 = .ok declaration →
        (((registry.lookup name).2.define definition).2.lookup name).1
          = .ok ⟨declaration, array.dimensions⟩ := by
  have wellFormed := reached.wellFormed
  refine ⟨fun name => (wellFormed.lookUpAmong_eq_find name).symm, ?_, ?_, ?_⟩
  · intro name calls
    refine ⟨((Agree.remember wellFormed name).answers calls).symm, ?_⟩
    show (registry.remember name).scope = registry.scope
    rw [scope, scope, find_remember, top, top, topName_remember]
  · intro name cause failed
    exact ⟨find_eq_error failed, remember_eq_self failed⟩
  · intro name array definition declaration cause read named failed defined
    have unchanged : (registry.lookup name).2 = registry := remember_eq_self failed
    rw [unchanged, define_fst] at defined
    rw [unchanged]
    exact wellFormed.find_define_of_lookedUpAs read named failed defined

/-- A registry that remembers the arrays of its root finds them by the declared types as well, and
it finds the arrays of a class that it has not found before once the class has been defined. -/
theorem IsReachable.lookup_eq_lookUpAmong_widget :
    let registry := ((ofTop "Root").lookup "[LRoot;").2
    let widget : Declaration := .ordinary "Widget" [] ⟨.top "Root", []⟩ []
    registry.IsReachable
      ∧ registry.arrays = [("[LRoot;", ⟨.top "Root", 1⟩)]
      ∧ lookUpAmong registry.declared? "[LRoot;" = .ok ⟨.top "Root", 1⟩
      ∧ (registry.lookup "[LWidget;").1 = .error (.typeNotFound "[LWidget;")
      ∧ (((registry.lookup "[LWidget;").2.define { name := "Widget" }).2.lookup "[LWidget;").1
        = .ok ⟨widget, 1⟩ := by
  intro registry widget
  have reached : registry.IsReachable := ⟨_, .ofTop "Root", .lookup .start "[LRoot;"⟩
  obtain ⟨answers, -, -, later⟩ := reached.lookup_eq_lookUpAmong
  have failed : registry.find "[LWidget;" = .error (.typeNotFound "[LWidget;") := rfl
  have defined : ((registry.lookup "[LWidget;").2.define { name := "Widget" }).1 = .ok widget := by
    have unchanged : (registry.lookup "[LWidget;").2 = registry := remember_eq_self failed
    rw [unchanged, define_plainClass ⟨by decide, by decide⟩ (by decide)]
    rfl
  have read : ArrayName.ofText? "[LWidget;" = some ⟨.reference "Widget", 1⟩ := rfl
  exact ⟨reached, rfl, (answers "[LRoot;").symm.trans rfl, failed,
    later _ _ _ _ _ read rfl failed defined⟩

end Registry

end GenericTypes
