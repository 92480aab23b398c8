import GenericTypes.Descriptor.Conversion
import GenericTypes.Proofs.Descriptor.RoundTrip

/-! # Array types by their names

An array type has a name that follows from its element. The element may have been declared under
any legal name, but a bracket inside it makes the array name unreadable: array types are found by
their names exactly when the name of the element holds no bracket. Reading a text and converting a
use look arrays up in this way and give what the look-up gives. -/

namespace GenericTypes

namespace Registry

variable {registry : Registry} {declaration : Declaration}

/-! ## Elements -/

/-- The name of a primitive type holds no bracket. -/
theorem bracket_notMem_name (type : Primitive) : '[' ∉ type.name.toList := by
  cases type <;> decide

namespace Populated

/-- How an array name refers to a declared type is readable exactly when the type has arrays and its
name holds no bracket. -/
theorem isReadable_arrayElement_iff (populated : registry.Populated)
    (mem : declaration ∈ registry.declared) (notVoid : declaration ≠ .primitive .void) :
    declaration.arrayElement.IsReadable ↔ '[' ∉ declaration.name.toList := by
  cases isPrimitive : declaration.isPrimitive with
  | true =>
    obtain ⟨type, rfl⟩ := Declaration.eq_primitive_of_isPrimitive isPrimitive
    have readable : (Declaration.primitive type).arrayElement.IsReadable :=
      ⟨type, rfl, fun void => notVoid (congrArg Declaration.primitive void)⟩
    exact iff_of_true readable (bracket_notMem_name type)
  | false =>
    have legal := populated.isLegal mem
    rw [Declaration.arrayElement_of_isPrimitive_eq_false isPrimitive]
    constructor
    · rintro ⟨-, noBracket, -⟩
      exact noBracket
    · intro noBracket
      -- an empty name and a semicolon are ruled out for every legal name
      refine ⟨legal.1, noBracket, fun semicolon => ?_⟩
      have reserved := legal.isReserved_eq_false semicolon
      cases reserved

/-- A declared type is referred to by its own array names. -/
theorem element?_arrayElement (populated : registry.Populated)
    (mem : declaration ∈ registry.declared) :
    registry.element? declaration.arrayElement = some declaration := by
  cases isPrimitive : declaration.isPrimitive with
  | true =>
    obtain ⟨type, rfl⟩ := Declaration.eq_primitive_of_isPrimitive isPrimitive
    rw [Declaration.arrayElement, element?, Primitive.ofCode?_code, Option.bind_some]
    exact populated.declared?_primitive type
  | false =>
    rw [Declaration.arrayElement_of_isPrimitive_eq_false isPrimitive, element?,
      populated.declared?_name mem, Option.filter_some, isPrimitive]
    rfl

/-- How an array of a declared type is called, and that no type is declared under this name. -/
theorem name_arrayOf (populated : registry.Populated) (declaration : Declaration)
    {dimensions : Nat} (positive : dimensions ≠ 0) :
    ((RawType.ofDeclaration declaration).arrayOf dimensions).name
        = ArrayName.text ⟨declaration.arrayElement, 0 + dimensions⟩
      ∧ 0 + dimensions ≠ 0
      ∧ registry.declared? ((RawType.ofDeclaration declaration).arrayOf dimensions).name
        = none := by
  have wrapped : ((RawType.ofDeclaration declaration).arrayOf dimensions).dimensions ≠ 0 := by
    rw [RawType.dimensions_arrayOf]
    exact Nat.ne_of_gt (Nat.add_pos_right _ (Nat.pos_of_ne_zero positive))
  exact ⟨RawType.name_of_dimensions_ne wrapped, wrapped,
    populated.declared?_eq_none (RawType.head?_name wrapped)⟩

/-- An array of a type that array names can refer to is found under its name. -/
theorem find_name_arrayOf_of_isReadable (populated : registry.Populated)
    (mem : declaration ∈ registry.declared) (readable : declaration.arrayElement.IsReadable)
    {dimensions : Nat} (positive : dimensions ≠ 0) :
    registry.find ((RawType.ofDeclaration declaration).arrayOf dimensions).name
      = .ok ((RawType.ofDeclaration declaration).arrayOf dimensions) := by
  obtain ⟨name, wrapped, undeclared⟩ := populated.name_arrayOf declaration positive
  have read : ArrayName.ofText? (ArrayName.text ⟨declaration.arrayElement, 0 + dimensions⟩)
      = some ⟨declaration.arrayElement, 0 + dimensions⟩ := ArrayName.ofText?_text readable wrapped
  rw [← name] at read
  have described := array?_of_ofText? read (populated.element?_arrayElement mem)
  rw [populated.find_eq, resolve?, undeclared, described]
  exact congrArg Except.ok (RawType.eq_of_parts rfl rfl)

/-- An array of a type that array names cannot refer to is not found under its name. -/
theorem find_name_arrayOf_of_not_isReadable (populated : registry.Populated)
    (unreadable : ¬ declaration.arrayElement.IsReadable) {dimensions : Nat}
    (positive : dimensions ≠ 0) :
    registry.find ((RawType.ofDeclaration declaration).arrayOf dimensions).name
      = .error (.typeNotFound ((RawType.ofDeclaration declaration).arrayOf dimensions).name) := by
  obtain ⟨name, -, undeclared⟩ := populated.name_arrayOf declaration positive
  have unread : ArrayName.ofText? ((RawType.ofDeclaration declaration).arrayOf dimensions).name
      = none := by
    rw [Option.eq_none_iff_forall_ne_some]
    intro other read
    -- the only array of that name is not readable
    obtain ⟨written, otherReadable, -⟩ := ArrayName.text_of_ofText? read
    have same := ArrayName.eq_of_text_eq otherReadable.isPlain
      declaration.isPlain_arrayElement (written.trans name)
    rw [same] at otherReadable
    exact unreadable otherReadable
  rw [populated.find_eq, resolve?, undeclared, array?, unread]
  rfl

/-- An array type is found under its name exactly when the name of its element holds no bracket. -/
theorem find_name_arrayOf (populated : registry.Populated) (mem : declaration ∈ registry.declared)
    (notVoid : declaration ≠ .primitive .void) {dimensions : Nat} (positive : dimensions ≠ 0) :
    registry.find ((RawType.ofDeclaration declaration).arrayOf dimensions).name
      = if '[' ∈ declaration.name.toList
        then .error (.typeNotFound ((RawType.ofDeclaration declaration).arrayOf dimensions).name)
        else .ok ((RawType.ofDeclaration declaration).arrayOf dimensions) := by
  have readable := populated.isReadable_arrayElement_iff mem notVoid
  by_cases bracket : '[' ∈ declaration.name.toList
  · rw [if_pos bracket]
    exact populated.find_name_arrayOf_of_not_isReadable (fun found => readable.1 found bracket)
      positive
  · rw [if_neg bracket]
    exact populated.find_name_arrayOf_of_isReadable mem (readable.2 bracket) positive

end Populated

end Registry

/-! ## Texts that are names -/

/-- A name has no blanks at its ends. -/
theorem IsName.isTrimmed {name : List Char} (isName : IsName name) : IsTrimmed name where
  head_eq := fun c first => (isName.2 c (List.mem_of_mem_head? first)).2.2.2
  last_eq := fun c last => (isName.2 c (List.mem_of_getLast? last)).2.2.2

/-- A text that is a name is read as what the name stands for. -/
theorem Descriptor.readOne_name {scope : Scope} {options : ReadOptions} {here : Address}
    {name : String} (isName : IsName name.toList) :
    readOne scope options here name
      = ((scope.find name).mapError .ofRegistry).map (leaf (here.child 0)) := by
  let context : Scan.Context := ⟨scope, options, here⟩
  have resolves : Scan.resolve context name.toList.reverse
      = (scope.find name).mapError .ofRegistry := by
    rw [Scan.resolve, List.reverse_reverse, String.ofList_toList]
  -- at the end of the text the whole name is pending
  have runs : Scan.Runs context {} name.toList ⟨[], [], .name name.toList.reverse⟩ :=
    Scan.runs_name isName (.inl rfl)
  have read : readAll scope options here name
      = (Scan.addName context (Scan.Progress.scan context ⟨[], [], .name name.toList.reverse⟩)
          name.toList.reverse >>= fun scan => .ok scan.finished.reverse) := by
    rw [readAll_of_isTrimmed isName.isTrimmed]
    show (Scan.run context 0 (Scan.Progress.scan context {}) name.toList >>= _) = _
    rw [(Scan.run_eq_ok_iff Scan.isValid_start).2 ⟨_, runs, rfl⟩]
    have ended : (Scan.Progress.scan context ⟨[], [], .name name.toList.reverse⟩).finish context
        (0 + byteLength name.toList) = _ := Scan.finish_outside _
    exact ended
  rw [readOne, read, Scan.addName, resolves]
  cases scope.find name <;> rfl

/-! ## Uses inside arrays -/

namespace Conversion

variable {conversion : Conversion} {here : Address} {use : TypeUse} {component : Descriptor}

/-- Every layer of arrays around a use is one more layer to wrap it into. -/
theorem resolve_arrayOf (layers dimensions : Nat) :
    conversion.resolve here layers (use.arrayOf dimensions)
      = conversion.resolve here (layers + dimensions) use := by
  induction dimensions generalizing layers with
  | zero => rfl
  | succ dimensions ih =>
    rw [TypeUse.arrayOf, resolve, ih, Nat.add_assoc, Nat.add_comm 1]

/-- A raw type, alone or with arguments, is converted inside arrays by wrapping what it is converted
to. -/
theorem convert_arrayOf {raw : RawType} (base : use.raw? = some raw)
    (converted : conversion.convert here use = .ok component) (dimensions : Nat) :
    component.raw = raw
      ∧ conversion.convert here (use.arrayOf dimensions)
        = conversion.wrap here component dimensions := by
  rw [convert, resolve_arrayOf, Nat.zero_add]
  -- all layers are wrapped at once, around the innermost use
  cases use with
  | plain known =>
    cases base
    cases converted
    refine ⟨rfl, ?_⟩
    rw [resolve, wrapSome]
    cases conversion.wrap here (.leaf here raw) dimensions <;> rfl
  | parameterized known arguments =>
    cases base
    rw [convert, resolve] at converted
    rw [resolve]
    cases resolved : conversion.resolveArguments here 0 arguments with
    | error cause =>
      rw [resolved] at converted
      cases converted
    | ok arguments =>
      rw [resolved] at converted
      cases converted
      refine ⟨rfl, ?_⟩
      show (wrapSome _ _ _ (some ⟨here, raw, arguments, false⟩) >>= _) = _
      rw [wrapSome]
      cases conversion.wrap here ⟨here, raw, arguments, false⟩ dimensions <;> rfl
  | _ => cases base

end Conversion

/-! ## Looking arrays up -/

namespace Registry

/-- **Arrays are found by their names unless a bracket stands inside.** In a registry that calls
lead to from the standard one, take an array of a declared type other than `void`. Looking its name
up gives the array type when the name of the element holds no bracket, and fails otherwise. So does
reading the name as a text of descriptors, and so does converting arrays of a raw type that can be
converted alone or with its arguments. -/
theorem ReachableFrom.lookup_arrayOf {registry : Registry}
    (reached : ReachableFrom standard registry) {declaration : Declaration}
    (mem : declaration ∈ registry.declared) (notVoid : declaration ≠ .primitive .void)
    {dimensions : Nat} (positive : 0 < dimensions) :
    let array := (RawType.ofDeclaration declaration).arrayOf dimensions
    (registry.lookup array.name).1
        = (if '[' ∈ declaration.name.toList then .error (.typeNotFound array.name) else .ok array)
      ∧ (∀ options here, Descriptor.readOne registry.scope options here array.name
        = if '[' ∈ declaration.name.toList then .error (.typeNotFound array.name)
          else .ok (.leaf (here.child 0) array))
      ∧ ∀ bindings here use component, use.raw? = some (.ofDeclaration declaration) →
        Conversion.convert ⟨registry.scope, bindings⟩ here use = .ok component →
        Conversion.convert ⟨registry.scope, bindings⟩ here (use.arrayOf dimensions)
          = if '[' ∈ declaration.name.toList then .error (.typeNotFound array.name)
            else .ok { address := here, raw := array, arguments := component.arguments } := by
  intro array
  have populated := reached.populated
  have found := populated.find_name_arrayOf mem notVoid (Nat.ne_of_gt positive)
  refine ⟨found, ?_, ?_⟩
  · -- the text is a single name, so reading it is a look-up
    intro options here
    rw [Descriptor.readOne_name (populated.isName_name mem)]
    show ((registry.find array.name).mapError _).map _ = _
    rw [found]
    split <;> rfl
  · -- converting looks the array type up by the name that is built from the component
    intro bindings here use component base converted
    obtain ⟨raw, wraps⟩ := Conversion.convert_arrayOf base converted dimensions
    obtain ⟨layers, rfl⟩ := Nat.exists_eq_succ_of_ne_zero (Nat.ne_of_gt positive)
    rw [wraps, Conversion.wrap, raw]
    show ((registry.find array.name).mapError _ >>= _) = _
    rw [found]
    split <;> rfl

/-- In the standard registry arrays of numbers are found by their names. -/
theorem ReachableFrom.lookup_arrayOfInts :
    ReachableFrom standard standard
      ∧ .primitive .int ∈ standard.declared ∧ Declaration.primitive .int ≠ .primitive .void ∧ 0 < 2
      ∧ (standard.lookup "[[I").1 = .ok ⟨.primitive .int, 2⟩ := by
  have reached : ReachableFrom standard standard := .start
  have int := populated_standard.primitive_mem .int
  have notVoid : Declaration.primitive .int ≠ .primitive .void := nofun
  exact ⟨reached, int, notVoid, Nat.zero_lt_two,
    (reached.lookup_arrayOf int notVoid Nat.zero_lt_two).1⟩

/-- The arrays of an interface with a bracket inside its name are not found by their names. -/
theorem lookup_arrayOfBracket :
    ReachableFrom standard (standard.define { name := "a[b", isInterface := true }).2
      ∧ .interface "a[b" [] []
        ∈ (standard.define { name := "a[b", isInterface := true }).2.declared
      ∧ ((RawType.ofDeclaration (.interface "a[b" [] [])).arrayOf 1).name = "[La[b;"
      ∧ ((standard.define { name := "a[b", isInterface := true }).2.lookup "[La[b;").1
        = .error (.typeNotFound "[La[b;") := by
  have reached : ReachableFrom standard
      (standard.define { name := "a[b", isInterface := true }).2 := .define .start _
  have free : standard.declared? "a[b" = none :=
    declared?_standard_eq_none (by decide) (by decide)
  have mem : .interface "a[b" [] []
      ∈ (standard.define { name := "a[b", isInterface := true }).2.declared := by
    rw [define_plainInterface ⟨by decide, by decide⟩ free]
    exact List.mem_cons_self
  have name : ((RawType.ofDeclaration (.interface "a[b" [] [])).arrayOf 1).name = "[La[b;" := by
    decide
  have found := reached.populated.find_name_arrayOf mem nofun (Nat.one_ne_zero)
  have bracket : '[' ∈ (Declaration.interface "a[b" [] []).name.toList := by decide
  rw [if_pos bracket, name] at found
  exact ⟨reached, mem, name, found⟩

end Registry

end GenericTypes
