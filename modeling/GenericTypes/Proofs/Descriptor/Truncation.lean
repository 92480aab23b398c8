import GenericTypes.Proofs.Descriptor.Readback

/-! # Lists of arguments that end early

What cannot be named has no descriptor, and an argument of that kind ends the list in which it
stands. The arguments in front of it are converted one by one, and the first error among them is the
error of the whole; what stands behind it is not looked at. A raw type with arguments can always be
named, whatever its arguments are, so a list that ends early shortens no list further out: all lists
of a use may as well be cut before the conversion. -/

namespace GenericTypes

namespace TypeUse

/-- A use in which every list of arguments that a conversion comes to ends in front of the first
argument that cannot be named. -/
def pruned : TypeUse → TypeUse
  | plain raw => plain raw
  | named name => named name
  | parameterized raw arguments =>
    parameterized raw ((arguments.map fun argument => argument.pruned).takeWhile isNameable)
  | array component => array component.pruned
  | parameter name bounds => parameter name bounds
  | wildcard [] lower => wildcard [] lower
  | wildcard (bound :: upper) lower => wildcard (bound.pruned :: upper) lower
  | unnameable description => unnameable description

/-- What can be named can be named when it is pruned, and nothing else. -/
@[simp] theorem isNameable_pruned (use : TypeUse) : use.pruned.isNameable = use.isNameable := by
  induction use using inductionOnComponents with
  | step use ih =>
    cases use with
    | parameterized raw arguments =>
      rw [pruned]
      rfl
    | array component => rw [pruned, isNameable, isNameable, ih component List.mem_cons_self]
    | wildcard upper lower =>
      cases upper with
      | nil => rw [pruned]
      | cons bound upper => rw [pruned, isNameable, isNameable, ih bound List.mem_cons_self]
    | _ => rw [pruned]

end TypeUse

namespace Conversion

variable {conversion : Conversion} {use : TypeUse} {here : Address} {index : Nat}

/-! ## What cannot be named -/

/-- What cannot be named comes to nothing, in arrays or not. -/
theorem resolve_of_not_nameable (unnameable : use.isNameable = false) (layers : Nat) :
    conversion.resolve here layers use = .ok none := by
  induction use using TypeUse.inductionOnComponents generalizing layers with
  | step use ih =>
    cases use with
    | array component =>
      rw [TypeUse.isNameable] at unnameable
      rw [resolve, ih component List.mem_cons_self unnameable]
    | wildcard upper lower =>
      cases upper with
      | nil => cases unnameable
      | cons bound upper =>
        rw [TypeUse.isNameable] at unnameable
        rw [resolve, ih bound List.mem_cons_self unnameable]
        rfl
    | unnameable description => rw [resolve]
    | _ => cases unnameable

/-- What cannot be named is not found, under its own text. -/
theorem convert_of_not_nameable (unnameable : use.isNameable = false) :
    conversion.convert here use = .error (.typeNotFound use.text) := by
  rw [convert, resolve_of_not_nameable unnameable]
  rfl

/-- What can be named is not left out. -/
theorem resolve_eq_map_convert (nameable : use.isNameable = true) :
    conversion.resolve here 0 use = (conversion.convert here use).map some := by
  rw [convert]
  cases resolved : conversion.resolve here 0 use with
  | error cause => rfl
  | ok result =>
    have isSome := isSome_of_resolve resolved
    cases result with
    | none =>
      rw [nameable] at isSome
      cases isSome
    | some descriptor => rfl

/-! ## Lists of arguments -/

/-- The arguments in front of the first one that cannot be named are converted one by one. -/
theorem resolveArguments_eq_convertAll (arguments : List TypeUse) :
    conversion.resolveArguments here index arguments
      = conversion.convertAll here index (arguments.takeWhile TypeUse.isNameable) := by
  induction arguments generalizing index with
  | nil => rfl
  | cons argument rest ih =>
    rw [resolveArguments, List.takeWhile_cons]
    cases nameable : argument.isNameable with
    | false =>
      rw [resolve_of_not_nameable nameable]
      rfl
    | true =>
      rw [resolve_eq_map_convert nameable, if_pos rfl, convertAll, ih]
      cases conversion.convert (here.child index) argument <;> rfl

/-- A raw type with arguments is converted by converting the arguments in front of the first one
that cannot be named. -/
theorem convert_parameterized (raw : RawType) (arguments : List TypeUse) :
    conversion.convert here (.parameterized raw arguments)
      = (conversion.convertAll here 0 (arguments.takeWhile TypeUse.isNameable)).map
        fun arguments => { address := here, raw, arguments } := by
  rw [convert, resolve, resolveArguments_eq_convertAll]
  cases conversion.convertAll here 0 (arguments.takeWhile TypeUse.isNameable) <;> rfl

/-- Uses are converted one by one, each at its own address. -/
theorem convertAll_eq_mapM (uses : List TypeUse) :
    conversion.convertAll here index uses
      = (uses.zipIdx index).mapM fun use => conversion.convert (here.child use.2) use.1 := by
  induction uses generalizing index with
  | nil => rfl
  | cons use rest ih =>
    rw [convertAll, List.zipIdx_cons, List.mapM_cons, ih]

/-- Uses are converted if each of them is, to as many descriptors in the same order. -/
theorem convertAll_eq_ok_iff {uses : List TypeUse} {descriptors : List Descriptor} :
    conversion.convertAll here index uses = .ok descriptors ↔
      descriptors.length = uses.length
        ∧ ∀ (offset : Nat) (use : TypeUse) (descriptor : Descriptor), uses[offset]? = some use →
          descriptors[offset]? = some descriptor →
            conversion.convert (here.child (index + offset)) use = .ok descriptor := by
  rw [convertAll_eq_mapM, mapM_zipIdx_eq_ok_iff]

/-- Uses are not converted if one of them is not; the error is that of the first such use. -/
theorem convertAll_eq_error_iff {uses : List TypeUse} {cause : DescriptorError} :
    conversion.convertAll here index uses = .error cause ↔
      ∃ (offset : Nat) (use : TypeUse), uses[offset]? = some use
        ∧ conversion.convert (here.child (index + offset)) use = .error cause
        ∧ ∀ earlier < offset, ∀ other : TypeUse, uses[earlier]? = some other →
          ∃ descriptor, conversion.convert (here.child (index + earlier)) other
            = .ok descriptor := by
  rw [convertAll_eq_mapM, mapM_zipIdx_eq_error_iff]

/-! ## Lists that are cut before the conversion -/

/-- Pruned arguments are converted like the arguments if each of them is. -/
theorem resolveArguments_pruned {arguments : List TypeUse}
    (alike : ∀ argument ∈ arguments, ∀ here,
      conversion.resolve here 0 argument.pruned = conversion.resolve here 0 argument) :
    conversion.resolveArguments here index
        ((arguments.map TypeUse.pruned).takeWhile TypeUse.isNameable)
      = conversion.resolveArguments here index arguments := by
  induction arguments generalizing index with
  | nil => rfl
  | cons argument rest ih =>
    rw [List.forall_mem_cons] at alike
    rw [List.map_cons, List.takeWhile_cons, TypeUse.isNameable_pruned, resolveArguments]
    cases nameable : argument.isNameable with
    | false =>
      rw [resolve_of_not_nameable nameable]
      rfl
    | true => rw [if_pos rfl, resolveArguments, alike.1, ih alike.2]

/-- What is pruned is converted to the same descriptor. -/
theorem resolve_pruned (use : TypeUse) (here : Address) (layers : Nat) :
    conversion.resolve here layers use.pruned = conversion.resolve here layers use := by
  induction use using TypeUse.inductionOnComponents generalizing here layers with
  | step use ih =>
    cases use with
    | parameterized raw arguments =>
      have alike : ∀ argument ∈ arguments, ∀ here,
          conversion.resolve here 0 argument.pruned = conversion.resolve here 0 argument :=
        fun argument mem here => ih argument mem here 0
      rw [TypeUse.pruned, resolve, resolve, resolveArguments_pruned alike]
    | array component => rw [TypeUse.pruned, resolve, resolve, ih component List.mem_cons_self]
    | wildcard upper lower =>
      cases upper with
      | nil => rw [TypeUse.pruned]
      | cons bound upper => rw [TypeUse.pruned, resolve, resolve, ih bound List.mem_cons_self]
    | _ => rw [TypeUse.pruned]

/-- What can be named is converted alike when it is pruned. -/
theorem convert_pruned (nameable : use.isNameable = true) :
    conversion.convert here use.pruned = conversion.convert here use := by
  have same : (conversion.convert here use.pruned).map some
      = (conversion.convert here use).map some := by
    rw [← resolve_eq_map_convert ((TypeUse.isNameable_pruned use).trans nameable),
      ← resolve_eq_map_convert nameable, resolve_pruned]
  obtain ⟨cause, first, second⟩ | ⟨left, right, first, second, equal⟩ := map_eq_map_cases same
  · rw [first, second]
  · rw [first, second, Option.some.inj equal]

/-! ## Where lists of arguments end -/

/-- The arguments in front of the first one that cannot be named, by its index. -/
theorem takeWhile_isNameable (arguments : List TypeUse) :
    arguments.takeWhile TypeUse.isNameable
      = arguments.take (arguments.findIdx fun argument => !argument.isNameable) :=
  List.takeWhile_eq_take_findIdx_not

/-- Behind the first argument that cannot be named anything may stand. -/
theorem takeWhile_take_succ_append {arguments : List TypeUse}
    (inside : (arguments.findIdx fun argument => !argument.isNameable) < arguments.length)
    (rest : List TypeUse) :
    (arguments.take ((arguments.findIdx fun argument => !argument.isNameable) + 1)
        ++ rest).takeWhile TypeUse.isNameable
      = arguments.takeWhile TypeUse.isNameable := by
  induction arguments with
  | nil => cases inside
  | cons argument others ih =>
    rw [List.findIdx_cons] at inside ⊢
    cases nameable : argument.isNameable with
    | false => simp [nameable]
    | true =>
      rw [nameable] at inside
      simp only [Bool.not_true, cond_false, List.length_cons, Nat.add_lt_add_iff_right] at inside
      simp only [Bool.not_true, cond_false, List.take_succ_cons, List.cons_append,
        List.takeWhile_cons, nameable, if_true, ih inside]

/-- What stands at an index in front of a cut. -/
theorem getElem?_take_eq_some_iff {arguments : List TypeUse} {cut index : Nat}
    {argument : TypeUse} :
    (arguments.take cut)[index]? = some argument ↔
      index < cut ∧ arguments[index]? = some argument := by
  rw [List.getElem?_take]
  split
  · rename_i inside
    exact (and_iff_right inside).symm
  · rename_i outside
    exact iff_of_false (Option.some_ne_none argument).symm fun found => outside found.1

/-- A raw type with arguments is not converted if one of the arguments in front of the first one
that cannot be named is not; the error is that of the first such argument. -/
theorem convert_parameterized_eq_error_iff {raw : RawType} {arguments : List TypeUse}
    {cause : DescriptorError} :
    conversion.convert here (.parameterized raw arguments) = .error cause ↔
      ∃ (index : Nat) (argument : TypeUse),
        index < arguments.findIdx (fun argument => !argument.isNameable)
        ∧ arguments[index]? = some argument
        ∧ conversion.convert (here.child index) argument = .error cause
        ∧ ∀ earlier < index, ∀ other : TypeUse, arguments[earlier]? = some other →
          ∃ result, conversion.convert (here.child earlier) other = .ok result := by
  have whole : conversion.convert here (.parameterized raw arguments) = .error cause ↔
      conversion.convertAll here 0 (arguments.takeWhile TypeUse.isNameable) = .error cause := by
    rw [convert_parameterized]
    exact bind_pure_eq_error_iff
  rw [whole, takeWhile_isNameable, convertAll_eq_error_iff]
  simp only [getElem?_take_eq_some_iff, Nat.zero_add, and_assoc]
  refine exists_congr fun index => exists_congr fun argument => and_congr_right fun less => ?_
  refine and_congr_right fun _ => and_congr_right fun _ => ?_
  refine forall_congr' fun earlier => imp_congr_right fun before => forall_congr' fun other => ?_
  -- what stands in front of it stands in front of the cut
  rw [and_iff_right (before.trans less)]

/-- Otherwise it is converted to the raw type with exactly these arguments, each of them
converted. -/
theorem convert_parameterized_eq_ok_iff {raw : RawType} {arguments : List TypeUse}
    {descriptor : Descriptor} :
    conversion.convert here (.parameterized raw arguments) = .ok descriptor ↔
      ∃ descriptors : List Descriptor,
        descriptor = { address := here, raw, arguments := descriptors }
        ∧ descriptors.length = arguments.findIdx (fun argument => !argument.isNameable)
        ∧ ∀ (index : Nat) (argument : TypeUse) (result : Descriptor),
          arguments[index]? = some argument → descriptors[index]? = some result →
            conversion.convert (here.child index) argument = .ok result := by
  have whole : conversion.convert here (.parameterized raw arguments) = .ok descriptor ↔
      ∃ descriptors : List Descriptor,
        descriptor = { address := here, raw, arguments := descriptors }
        ∧ conversion.convertAll here 0 (arguments.takeWhile TypeUse.isNameable)
          = .ok descriptors := by
    rw [convert_parameterized]
    cases conversion.convertAll here 0 (arguments.takeWhile TypeUse.isNameable) with
    | error cause => simp [Except.map]
    | ok descriptors => simp [Except.map, eq_comm]
  have cut_le : arguments.findIdx (fun argument => !argument.isNameable) ≤ arguments.length :=
    List.findIdx_le_length
  rw [whole]
  refine exists_congr fun descriptors => and_congr_right fun _ => ?_
  rw [takeWhile_isNameable, convertAll_eq_ok_iff, List.length_take_of_le cut_le]
  simp only [getElem?_take_eq_some_iff, Nat.zero_add]
  refine and_congr_right fun lengths => forall_congr' fun index => forall_congr' fun argument =>
    forall_congr' fun result => ?_
  constructor
  · intro each found converted
    -- an argument that has a result stands in front of the cut
    obtain ⟨inside, -⟩ := List.getElem?_eq_some_iff.1 converted
    exact each ⟨lengths ▸ inside, found⟩ converted
  · exact fun each found converted => each found.2 converted

/-- **What cannot be named ends the list in which it stands.** Whatever names and type parameters
stand for, a use that cannot be named is not found, under its own text. The conversion of a raw type
with arguments depends on those in front of the first one that cannot be named, or on all of them if
there is none: it fails if one of them cannot be converted, with the error of the first such one,
and otherwise gives the raw type with exactly as many arguments, each of them converted. Behind the
first argument that cannot be named anything may stand. A raw type with arguments can be named
itself; it is converted alike when every list of arguments inside it is cut in front of its own
first argument that cannot be named, so a list that ends early shortens no other one. -/
theorem convert_unnameable (conversion : Conversion) (here : Address) :
    (∀ use : TypeUse, use.isNameable = false →
        conversion.convert here use = .error (.typeNotFound use.text))
      ∧ ∀ (raw : RawType) (arguments : List TypeUse),
        let use := TypeUse.parameterized raw arguments
        let cut := arguments.findIdx fun argument => !argument.isNameable
        (∀ cause, conversion.convert here use = .error cause ↔
            ∃ (index : Nat) (argument : TypeUse), index < cut
              ∧ arguments[index]? = some argument
              ∧ conversion.convert (here.child index) argument = .error cause
              ∧ ∀ earlier < index, ∀ other : TypeUse, arguments[earlier]? = some other →
                ∃ result, conversion.convert (here.child earlier) other = .ok result)
          ∧ (∀ descriptor, conversion.convert here use = .ok descriptor ↔
            ∃ descriptors : List Descriptor,
              descriptor = { address := here, raw, arguments := descriptors }
              ∧ descriptors.length = cut
              ∧ ∀ (index : Nat) (argument : TypeUse) (result : Descriptor),
                arguments[index]? = some argument → descriptors[index]? = some result →
                  conversion.convert (here.child index) argument = .ok result)
          ∧ (cut < arguments.length → ∀ rest,
            conversion.convert here (.parameterized raw (arguments.take (cut + 1) ++ rest))
              = conversion.convert here use)
          ∧ use.isNameable = true
          ∧ conversion.convert here use.pruned = conversion.convert here use := by
  refine ⟨fun use => convert_of_not_nameable, fun raw arguments => ?_⟩
  refine ⟨fun cause => convert_parameterized_eq_error_iff,
    fun descriptor => convert_parameterized_eq_ok_iff, fun inside rest => ?_, rfl,
    convert_pruned rfl⟩
  rw [convert_parameterized, convert_parameterized, takeWhile_take_succ_append inside]

/-- Where no name is known, a pair of a known type and of something that cannot be named is
converted up to the latter, although an unknown name stands behind it. -/
theorem convert_unnameable_pair :
    let conversion : Conversion :=
      ⟨⟨fun name => .error (.typeNotFound name), .ofDeclaration (.top "Root")⟩, []⟩
    let here : Address := ⟨0, []⟩
    let pair : RawType := .ofDeclaration (.interface "Pair" ["A", "B"] [])
    let captured : TypeUse := .array (.unnameable "captured")
    captured.isNameable = false
      ∧ conversion.convert here captured = .error (.typeNotFound captured.text)
      ∧ conversion.convert here (.named "Missing") = .error (.typeNotFound "Missing")
      ∧ conversion.convert here (.parameterized pair [.plain pair, captured, .named "Missing"])
        = .ok ⟨here, pair, [.leaf (here.child 0) pair], false⟩ := by
  intro conversion here pair captured
  obtain ⟨notFound, lists⟩ := convert_unnameable conversion here
  obtain ⟨-, converted_iff, -⟩ := lists pair [.plain pair, captured, .named "Missing"]
  refine ⟨rfl, notFound captured rfl, rfl,
    (converted_iff _).2 ⟨[.leaf (here.child 0) pair], rfl, rfl, ?_⟩⟩
  intro index argument result found converted
  cases index with
  | zero =>
    cases found
    cases converted
    rfl
  | succ index => cases converted

end Conversion

end GenericTypes
