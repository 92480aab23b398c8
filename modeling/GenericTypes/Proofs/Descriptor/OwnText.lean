import GenericTypes.Proofs.Descriptor.Conversion
import GenericTypes.Proofs.Descriptor.Equivalence
import GenericTypes.Proofs.Registry.ArrayLookup

/-! # Uses and their own texts

A use that is put together from raw types, names and applications has a text that can be read as a
text of descriptors. Reading it and converting the use are two ways to a descriptor: one goes
through the characters and looks a name up where it ends, the other goes through the tree. Both look
the same names up in the same order, so both come to the same descriptor, or stop at the same name.
-/

namespace GenericTypes

/-! ## Names in reading order -/

/-- The first of some names that stands for nothing. -/
def Scope.firstUnknown (scope : Scope) (names : List String) : Option String :=
  names.find? fun name => (scope.find name).toOption.isNone

namespace TypeUse

/-- Whether a use is put together from raw types of a kind, names and applications to at least one
argument. -/
inductive IsNominal (raws : RawType → Prop) : TypeUse → Prop
  /-- A raw type. -/
  | plain {raw : RawType} (known : raws raw) : IsNominal raws (.plain raw)
  /-- A name that can be told apart in a text. -/
  | named {name : String} (isName : IsName name.toList) : IsNominal raws (.named name)
  /-- A raw type applied to arguments. -/
  | parameterized {raw : RawType} {arguments : List TypeUse} (known : raws raw)
      (nonempty : arguments ≠ []) (inside : ∀ argument ∈ arguments, IsNominal raws argument) :
      IsNominal raws (.parameterized raw arguments)

/-- How deep applications are nested, zero without arguments. -/
def depth : TypeUse → Nat
  | parameterized _ arguments =>
    (arguments.map fun argument => argument.depth + 1).foldr Nat.max 0
  | _ => 0

/-- The names of raw types and the other names in a use, in reading order. -/
def names : TypeUse → List String
  | plain raw => [raw.name]
  | named name => [name]
  | parameterized raw arguments => raw.name :: arguments.flatMap names
  | _ => []

/-- The characters of the text of a use. -/
def chars (use : TypeUse) : List Char :=
  use.text.toList

/-- The text of an application has its arguments between brackets. -/
theorem chars_parameterized (raw : RawType) (arguments : List TypeUse) :
    (parameterized raw arguments).chars
      = raw.name.toList ++ '<' :: (listed (arguments.map chars) ++ ['>']) := by
  have texts : (arguments.map text).map String.toList = arguments.map chars := List.map_map
  rw [chars, text, String.toList_append, String.toList_append, String.toList_append,
    String.toList_intercalate, texts]
  simp [listed]

/-- An application is nested within a bound when its arguments are nested below it. -/
theorem depth_parameterized_le_iff {raw : RawType} {arguments : List TypeUse} {bound : Nat} :
    (parameterized raw arguments).depth ≤ bound ↔
      ∀ argument ∈ arguments, argument.depth < bound := by
  rw [depth, Descriptor.foldr_max_le_iff, List.forall_mem_map]
  exact Iff.rfl

end TypeUse

/-- What stands for something is not unknown. -/
theorem Scope.firstUnknown_cons_of_find {scope : Scope} {name : String} {raw : RawType}
    (found : scope.find name = .ok raw) (names : List String) :
    scope.firstUnknown (name :: names) = scope.firstUnknown names := by
  rw [firstUnknown, List.find?_cons, found]
  rfl

/-- The first unknown name of some uses is that of the first use with an unknown name. -/
theorem Scope.firstUnknown_flatMap_cons {scope : Scope} (use : TypeUse) (rest : List TypeUse) :
    scope.firstUnknown ((use :: rest).flatMap TypeUse.names)
      = (scope.firstUnknown use.names).or (scope.firstUnknown (rest.flatMap TypeUse.names)) := by
  rw [List.flatMap_cons, firstUnknown, List.find?_append]
  rfl

/-- Uses without unknown names have none in any of them. -/
theorem Scope.firstUnknown_of_mem {scope : Scope} {uses : List TypeUse}
    (known : scope.firstUnknown (uses.flatMap TypeUse.names) = none) :
    ∀ use ∈ uses, scope.firstUnknown use.names = none := by
  intro use mem
  rw [firstUnknown, List.find?_eq_none] at known ⊢
  exact fun name inside => known name (List.mem_flatMap_of_mem mem inside)

/-- A name that is the first unknown one stands for nothing. -/
theorem Scope.exists_error_of_firstUnknown {scope : Scope} {names : List String} {name : String}
    (unknown : scope.firstUnknown names = some name) : ∃ cause, scope.find name = .error cause := by
  have missing := List.find?_some unknown
  cases found : scope.find name with
  | error cause => exact ⟨cause, rfl⟩
  | ok raw =>
    rw [found] at missing
    cases missing

/-- A name that is not the first unknown one of itself stands for something. -/
theorem Scope.exists_ok_of_firstUnknown_singleton {scope : Scope} {name : String}
    (known : scope.firstUnknown [name] = none) : ∃ raw, scope.find name = .ok raw := by
  rw [firstUnknown, List.find?_eq_none] at known
  have found := known name List.mem_cons_self
  cases answer : scope.find name with
  | ok raw => exact ⟨raw, rfl⟩
  | error cause =>
    rw [answer] at found
    exact absurd rfl found

/-! ## Converting -/

/-- Whether a descriptor is what a use means: it has the text and the depth of the use and no
markers, and its raw types are those that its names stand for. -/
structure TypeUse.Means (scope : Scope) (use : TypeUse) (descriptor : Descriptor) : Prop where
  /-- The texts are the same. -/
  chars_eq : descriptor.chars = use.chars
  /-- The depths are the same. -/
  depth_eq : descriptor.depth = use.depth
  /-- No node is a marker, and every raw type is found under its name. -/
  nodes : ∀ node ∈ descriptor.nodes,
    node.identity = false ∧ scope.find node.raw.name = .ok node.raw

namespace Conversion

variable {registry : Registry} (bindings : Bindings)

/-- Names stand for the same in a conversion as in its registry. -/
theorem find_of_find {name : String} {raw : RawType} (found : registry.find name = .ok raw) :
    find ⟨registry.scope, bindings⟩ name = .ok raw := by
  show (registry.find name).mapError _ = _
  rw [found]
  rfl

/-- A name that stands for nothing is not found in a conversion. -/
theorem find_of_firstUnknown {names : List String} {name : String}
    (unknown : registry.scope.firstUnknown names = some name) :
    find ⟨registry.scope, bindings⟩ name = .error (.typeNotFound name) := by
  obtain ⟨cause, failed⟩ := Scope.exists_error_of_firstUnknown unknown
  have failed : registry.find name = .error cause := failed
  show (registry.find name).mapError _ = _
  rw [failed, Registry.find_eq_error failed]
  rfl

/-- A node without arguments is meant by a name that stands for its raw type. -/
theorem means_leaf {use : TypeUse} {raw : RawType} (here : Address)
    (found : registry.scope.find raw.name = .ok raw) (text : use.chars = raw.name.toList)
    (flat : use.depth = 0) : use.Means registry.scope (.leaf here raw) where
  chars_eq := by rw [Descriptor.chars_leaf, text]
  depth_eq := by
    rw [flat, Descriptor.depth]
    rfl
  nodes := Descriptor.forall_nodes_iff.2 ⟨⟨rfl, found⟩, nofun⟩

/-- Arguments without unknown names are converted to descriptors that they mean. -/
theorem exists_means_of_resolveArguments {arguments : List TypeUse}
    (means : ∀ argument ∈ arguments, ∀ here, ∃ descriptor,
      resolve ⟨registry.scope, bindings⟩ here 0 argument = .ok (some descriptor)
        ∧ argument.Means registry.scope descriptor)
    (here : Address) (index : Nat) :
    ∃ descriptors, resolveArguments ⟨registry.scope, bindings⟩ here index arguments
        = .ok descriptors
      ∧ descriptors.map Descriptor.chars = arguments.map TypeUse.chars
      ∧ descriptors.map (fun descriptor => descriptor.depth + 1)
        = arguments.map (fun argument => argument.depth + 1)
      ∧ ∀ descriptor ∈ descriptors, ∀ node ∈ descriptor.nodes,
        node.identity = false ∧ registry.scope.find node.raw.name = .ok node.raw := by
  induction arguments generalizing index with
  | nil => exact ⟨[], rfl, rfl, rfl, nofun⟩
  | cons argument rest ih =>
    rw [List.forall_mem_cons] at means
    obtain ⟨first, firstEq, firstMeans⟩ := means.1 (here.child index)
    obtain ⟨others, othersEq, texts, depths, nodes⟩ := ih means.2 (index + 1)
    refine ⟨first :: others, ?_, ?_, ?_, List.forall_mem_cons.2 ⟨firstMeans.nodes, nodes⟩⟩
    · rw [resolveArguments, firstEq]
      show (resolveArguments _ here (index + 1) rest >>= _) = _
      rw [othersEq]
      rfl
    · rw [List.map_cons, List.map_cons, texts, firstMeans.chars_eq]
    · rw [List.map_cons, List.map_cons, depths, firstMeans.depth_eq]

section Populated

variable (populated : registry.Populated) {use : TypeUse}
include populated

/-- A use without unknown names is converted to a descriptor that it means. -/
theorem exists_means_of_firstUnknown (nominal : use.IsNominal registry.Knows)
    (known : registry.scope.firstUnknown use.names = none) (here : Address) :
    ∃ descriptor, resolve ⟨registry.scope, bindings⟩ here 0 use = .ok (some descriptor)
      ∧ use.Means registry.scope descriptor := by
  induction nominal generalizing here with
  | @plain raw handle =>
    have found := populated.find_name_of_knows handle
    refine ⟨.leaf here raw, ?_, means_leaf here found ?_ ?_⟩
    · rw [resolve]
      rfl
    · rw [TypeUse.chars, TypeUse.text]
    · rw [TypeUse.depth]
      intro raw arguments same
      cases same
  | @named name isName =>
    rw [TypeUse.names] at known
    obtain ⟨raw, found⟩ := Scope.exists_ok_of_firstUnknown_singleton known
    have same := populated.name_of_find found
    refine ⟨.leaf here raw, ?_, means_leaf here (same.symm ▸ found) ?_ ?_⟩
    · rw [resolve, find_of_find bindings found]
      rfl
    · rw [TypeUse.chars, TypeUse.text, same]
    · rw [TypeUse.depth]
      intro raw arguments same
      cases same
  | @parameterized raw arguments handle nonempty inside ih =>
    have found := populated.find_name_of_knows handle
    rw [TypeUse.names, Scope.firstUnknown_cons_of_find found] at known
    have none := Scope.firstUnknown_of_mem known
    obtain ⟨descriptors, argumentsEq, texts, depths, nodes⟩ :=
      exists_means_of_resolveArguments bindings
        (fun argument mem here => ih argument mem (none argument mem) here) here 0
    refine ⟨⟨here, raw, descriptors, false⟩, ?_, ?_, ?_, ?_⟩
    · rw [resolve, argumentsEq]
      rfl
    · have brackets : descriptors.isEmpty = false := by
        rw [← List.isEmpty_map (f := Descriptor.chars), texts, List.isEmpty_map,
          List.isEmpty_eq_false_iff]
        exact nonempty
      rw [Descriptor.chars_eq, TypeUse.chars_parameterized, brackets, if_neg Bool.false_ne_true,
        texts]
    · rw [Descriptor.depth, TypeUse.depth, depths]
    · exact Descriptor.forall_nodes_iff.2 ⟨⟨rfl, found⟩, nodes⟩

/-- Arguments with an unknown name are not converted, because of the first such name. -/
theorem resolveArguments_of_firstUnknown {arguments : List TypeUse}
    (nominal : ∀ argument ∈ arguments, argument.IsNominal registry.Knows)
    (fails : ∀ argument ∈ arguments, ∀ name,
      registry.scope.firstUnknown argument.names = some name → ∀ here,
        resolve ⟨registry.scope, bindings⟩ here 0 argument = .error (.typeNotFound name))
    {name : String}
    (unknown : registry.scope.firstUnknown (arguments.flatMap TypeUse.names) = some name)
    (here : Address) (index : Nat) :
    resolveArguments ⟨registry.scope, bindings⟩ here index arguments
      = .error (.typeNotFound name) := by
  induction arguments generalizing index with
  | nil => cases unknown
  | cons argument rest ih =>
    rw [List.forall_mem_cons] at nominal fails
    rw [Scope.firstUnknown_flatMap_cons] at unknown
    rw [resolveArguments]
    cases first : registry.scope.firstUnknown argument.names with
    | some other =>
      rw [first] at unknown
      cases unknown
      rw [fails.1 name first]
      rfl
    | none =>
      rw [first, Option.none_or] at unknown
      obtain ⟨descriptor, converted, -⟩ :=
        exists_means_of_firstUnknown bindings populated nominal.1 first
          (here.child index)
      rw [converted]
      show (resolveArguments _ here (index + 1) rest >>= _) = _
      rw [ih nominal.2 fails.2 unknown (index + 1)]
      rfl

/-- A use with an unknown name is not converted, because of the first such name. -/
theorem resolve_of_firstUnknown (nominal : use.IsNominal registry.Knows) {name : String}
    (unknown : registry.scope.firstUnknown use.names = some name) (here : Address) :
    resolve ⟨registry.scope, bindings⟩ here 0 use = .error (.typeNotFound name) := by
  induction nominal generalizing here name with
  | plain handle =>
    have found := populated.find_name_of_knows handle
    rw [TypeUse.names, Scope.firstUnknown_cons_of_find found] at unknown
    cases unknown
  | named isName =>
    rw [TypeUse.names] at unknown
    have missing : find ⟨registry.scope, bindings⟩ name = _ :=
      find_of_firstUnknown bindings unknown
    cases List.mem_singleton.1 (List.mem_of_find?_eq_some unknown)
    rw [resolve, missing]
    rfl
  | parameterized handle nonempty inside ih =>
    have found := populated.find_name_of_knows handle
    rw [TypeUse.names, Scope.firstUnknown_cons_of_find found] at unknown
    rw [resolve, resolveArguments_of_firstUnknown bindings populated inside
      (fun argument mem _ first here => ih argument mem first here) unknown here 0]
    rfl

end Populated

end Conversion

/-! ## Reading -/

/-- A list inside brackets starts with its first item and what ends an argument behind it. -/
theorem exists_listed_cons (item : List Char) (items : List (List Char)) (rest : List Char) :
    ∃ c behind, listed (item :: items) ++ '>' :: rest = item ++ c :: behind
      ∧ (c = ',' ∨ c = '>') := by
  cases items with
  | nil =>
    rw [listed_singleton]
    exact ⟨'>', rest, rfl, .inr rfl⟩
  | cons second items =>
    rw [listed_cons_cons, List.append_assoc, List.append_assoc]
    exact ⟨',', _, rfl, .inl rfl⟩

namespace Scan

open Descriptor

/-- Whether a scan comes to a name inside a text, where an argument of open brackets ends. -/
def MeetsName (context : Context) (progress : Progress) (text : List Char) (name : String) : Prop :=
  ∃ part c rest frames items, text = part ++ c :: rest
    ∧ Runs context progress part ⟨frames, items, .name name.toList.reverse⟩
    ∧ frames ≠ [] ∧ (c = ',' ∨ c = '>')

/-- Whether a scan inside brackets comes to the first unknown name of a use, if there is room for
the brackets of the use. -/
def MeetsUnknown (context : Context) (use : TypeUse) : Prop :=
  ∀ name frames items phase c rest, context.scope.firstUnknown use.names = some name →
    frames ≠ [] → frames.length + use.depth ≤ context.options.maxDepth →
    (phase = .fresh ∨ phase = .separated) → (c = ',' ∨ c = '>') →
    MeetsName context ⟨frames, items, phase⟩ (use.chars ++ c :: rest) name

section Stops

variable {context : Context} {progress next : Progress} {text : List Char} {name : String}

/-- A scan comes to a name behind a part that it can read. -/
theorem MeetsName.append {part : List Char} (runs : Runs context progress part next)
    (meets : MeetsName context next text name) :
    MeetsName context progress (part ++ text) name := by
  obtain ⟨inside, c, rest, frames, items, rfl, others, nonempty, ends⟩ := meets
  refine ⟨part ++ inside, c, rest, frames, items, ?_, runs.append others, nonempty, ends⟩
  rw [List.append_assoc]

/-- A scan that comes to a name that stands for nothing stops there. -/
theorem run_of_meetsName (valid : progress.IsValid)
    (missing : context.scope.find name = .error (.typeNotFound name))
    (meets : MeetsName context progress text name) (position : Nat) :
    run context position (progress.scan context) text = .error (.typeNotFound name) := by
  obtain ⟨part, c, rest, frames, items, rfl, runs, nonempty, ends⟩ := meets
  have resolves : resolve context name.toList.reverse = .error (.typeNotFound name) := by
    rw [resolve, List.reverse_reverse, String.ofList_toList, missing]
    rfl
  -- what ends an argument adds the name first
  have ended : ∀ place,
      (Progress.scan context ⟨frames, items, .name name.toList.reverse⟩).endArgument context place
        = .error (.typeNotFound name) := by
    intro place
    show addName context _ _ = _
    rw [addName, resolves]
    rfl
  rw [run_append, (run_eq_ok_iff valid).2 ⟨_, runs, rfl⟩]
  show (step context _ _ c >>= _) = _
  rcases ends with rfl | rfl
  · show ((endArgument context _ _ >>= _) >>= _) = _
    rw [ended]
    rfl
  · obtain ⟨frame, outer, rfl⟩ := List.exists_cons_of_ne_nil nonempty
    show ((endArgument context _ _ >>= _) >>= _) = _
    rw [ended]
    rfl

/-- A text in which the scan comes to a name that stands for nothing is not read. -/
theorem readBody_of_meetsName (missing : context.scope.find name = .error (.typeNotFound name))
    (meets : MeetsName context {} text name) (start : Nat) :
    readBody context start text = .error (.typeNotFound name) := by
  show (run context start (Progress.scan context {}) text >>= _) = _
  rw [run_of_meetsName isValid_start missing meets]
  rfl

end Stops

section Populated

variable {registry : Registry} {options : ReadOptions} {here : Address} {frames : List Frame}
  {items : List Descriptor} {phase : Phase} {use : TypeUse}
variable (populated : registry.Populated)
include populated

/-- The text of a use without unknown names is read up to its end. -/
theorem exists_runs_of_firstUnknown (nominal : use.IsNominal registry.Knows)
    (known : registry.scope.firstUnknown use.names = none)
    (room : frames.length + use.depth ≤ options.maxDepth)
    (start : phase = .fresh ∨ phase = .separated) (items : List Descriptor) (here : Address) :
    ∃ descriptor read ended,
      Runs ⟨registry.scope, options, here⟩ ⟨frames, items, phase⟩ use.chars ⟨frames, read, ended⟩
        ∧ Ends ⟨registry.scope, options, here⟩ read ended (items ++ [descriptor]) := by
  let context : Context := ⟨registry.scope, options, here⟩
  -- the text is that of the descriptor to which the use is converted
  obtain ⟨descriptor, -, chars, depth, nodes⟩ :=
    Conversion.exists_means_of_firstUnknown [] populated nominal known here
  have readable : Readable context frames.length descriptor := by
    refine ⟨fun node mem => (nodes node mem).2, ?_⟩
    rw [depth]
    exact room
  have names : ∀ node ∈ descriptor.nodes, IsName node.raw.name.toList :=
    fun node mem => populated.isReadable_scope.isName (nodes node mem).2
  have spaced : Respaced (descriptor.chars ++ []) use.chars := by
    rw [List.append_nil, ← chars]
    exact respaced_chars names
  have reads : Reads context ⟨frames, items, phase⟩ use.chars [descriptor] [] :=
    reads_chars populated.isReadable_scope readable start spaced
  obtain ⟨part, rest, read, ended, whole, left, runs, ends⟩ := reads
  rw [left.eq_nil, List.append_nil] at whole
  rw [whole]
  exact ⟨descriptor, read, ended, runs, ends⟩

/-- In the list of some uses a scan comes to the first unknown name. -/
theorem meetsName_listed {uses : List TypeUse}
    (nominal : ∀ use ∈ uses, use.IsNominal registry.Knows)
    (meets : ∀ use ∈ uses, MeetsUnknown ⟨registry.scope, options, here⟩ use) {name : String}
    (unknown : registry.scope.firstUnknown (uses.flatMap TypeUse.names) = some name)
    (inside : frames ≠ [])
    (room : ∀ use ∈ uses, frames.length + use.depth ≤ options.maxDepth)
    (start : phase = .fresh ∨ phase = .separated) (rest : List Char) :
    MeetsName ⟨registry.scope, options, here⟩ ⟨frames, items, phase⟩
      (listed (uses.map TypeUse.chars) ++ '>' :: rest) name := by
  induction uses generalizing items phase with
  | nil => cases unknown
  | cons use others ih =>
    rw [List.forall_mem_cons] at nominal meets room
    rw [Scope.firstUnknown_flatMap_cons] at unknown
    cases first : registry.scope.firstUnknown use.names with
    | some other =>
      rw [first] at unknown
      cases unknown
      obtain ⟨c, behind, text, ends⟩ :=
        exists_listed_cons use.chars (others.map TypeUse.chars) rest
      rw [List.map_cons, text]
      exact meets.1 _ frames items phase c behind first inside room.1 start ends
    | none =>
      rw [first, Option.none_or] at unknown
      obtain ⟨descriptor, read, ended, runs, ends⟩ :=
        exists_runs_of_firstUnknown populated nominal.1 first room.1 start items here
      cases others with
      | nil => cases unknown
      | cons second others =>
        -- the comma ends the first argument, and the blank behind it leads to the next one
        have behind : MeetsName ⟨registry.scope, options, here⟩
            ⟨frames, items ++ [descriptor], .fresh⟩ _ name :=
          ih nominal.2 meets.2 unknown room.2 (.inl rfl)
        have separated := MeetsName.append (.cons (.comma ends)
          (.singleton (.blank (c := ' ') (by decide)))) behind
        rw [List.map_cons, List.map_cons, listed_cons_cons, List.append_assoc, List.append_assoc]
        exact MeetsName.append runs separated

/-- In the text of an application a scan comes to the first unknown name of the arguments. -/
theorem meetsName_parameterized {raw : RawType} {arguments : List TypeUse}
    (handle : registry.Knows raw) (nonempty : arguments ≠ [])
    (nominal : ∀ argument ∈ arguments, argument.IsNominal registry.Knows)
    (meets : ∀ argument ∈ arguments, MeetsUnknown ⟨registry.scope, options, here⟩ argument)
    {name : String}
    (unknown : registry.scope.firstUnknown (TypeUse.parameterized raw arguments).names = some name)
    (room : frames.length + (TypeUse.parameterized raw arguments).depth ≤ options.maxDepth)
    (start : phase = .fresh ∨ phase = .separated) (rest : List Char) :
    MeetsName ⟨registry.scope, options, here⟩ ⟨frames, items, phase⟩
      ((TypeUse.parameterized raw arguments).chars ++ rest) name := by
  have found : registry.scope.find raw.name = .ok raw := populated.find_name_of_knows handle
  rw [TypeUse.names, Scope.firstUnknown_cons_of_find found] at unknown
  have resolved : resolve ⟨registry.scope, options, here⟩ raw.name.toList.reverse = .ok raw := by
    rw [resolve_eq_ok_iff, List.reverse_reverse, String.ofList_toList]
    exact found
  -- every argument leaves room for the brackets around it
  have below : (TypeUse.parameterized raw arguments).depth ≤ options.maxDepth - frames.length := by
    omega
  rw [TypeUse.depth_parameterized_le_iff] at below
  have inLimit : frames.length < options.maxDepth := by
    obtain ⟨argument, mem⟩ := List.exists_mem_of_ne_nil _ nonempty
    have := below argument mem
    omega
  have opens : Runs ⟨registry.scope, options, here⟩ ⟨frames, items, phase⟩
      (raw.name.toList ++ ['<']) ⟨⟨items, raw⟩ :: frames, [], .fresh⟩ :=
    (runs_name (populated.isReadable_scope.isName found) start).append
      (.singleton (.opens inLimit resolved))
  have inside : MeetsName ⟨registry.scope, options, here⟩ ⟨⟨items, raw⟩ :: frames, [], .fresh⟩
      (listed (arguments.map TypeUse.chars) ++ '>' :: rest) name := by
    refine meetsName_listed populated nominal meets unknown (List.cons_ne_nil _ _) ?_
      (.inl rfl) rest
    intro argument mem
    have := below argument mem
    rw [List.length_cons]
    omega
  have whole := inside.append opens
  rw [TypeUse.chars_parameterized]
  simpa only [List.append_assoc, List.cons_append, List.nil_append] using whole

/-- In the text of a use inside brackets a scan comes to the first unknown name. -/
theorem meetsUnknown (nominal : use.IsNominal registry.Knows) :
    MeetsUnknown ⟨registry.scope, options, here⟩ use := by
  induction nominal with
  | plain handle =>
    intro name _ _ _ _ _ unknown
    have found := populated.find_name_of_knows handle
    rw [TypeUse.names, Scope.firstUnknown_cons_of_find found] at unknown
    cases unknown
  | @named written isName =>
    intro name frames items phase c rest unknown inside _ start ends
    rw [TypeUse.names] at unknown
    cases List.mem_singleton.1 (List.mem_of_find?_eq_some unknown)
    rw [TypeUse.chars, TypeUse.text]
    exact ⟨_, c, rest, frames, items, rfl, runs_name isName start, inside, ends⟩
  | parameterized handle nonempty inside ih =>
    intro name frames items phase c rest unknown _ room start _
    exact meetsName_parameterized populated handle nonempty inside ih unknown room start (c :: rest)

end Populated

end Scan

/-- The text of an application has no blanks at its ends. -/
theorem TypeUse.isTrimmed_parameterized {raw : RawType} (isName : IsName raw.name.toList)
    (arguments : List TypeUse) : IsTrimmed (parameterized raw arguments).chars where
  head_eq := by
    intro c first
    rw [chars_parameterized, List.head?_append_of_ne_nil _ isName.1] at first
    exact isName.isTrimmed.head_eq c first
  last_eq := by
    intro c last
    have shape : (parameterized raw arguments).chars
        = (raw.name.toList ++ '<' :: listed (arguments.map chars)) ++ ['>'] := by
      rw [chars_parameterized, List.append_assoc, List.cons_append]
    rw [shape, List.getLast?_concat] at last
    cases last
    decide

/-- The text of a use with an unknown name is not read, because of the first such name. -/
theorem Descriptor.readOne_of_firstUnknown {registry : Registry} (populated : registry.Populated)
    {use : TypeUse} (nominal : use.IsNominal registry.Knows) {options : ReadOptions}
    (room : use.depth ≤ options.maxDepth) {name : String}
    (unknown : registry.scope.firstUnknown use.names = some name) (here : Address) :
    readOne registry.scope options here use.text = .error (.typeNotFound name) := by
  obtain ⟨cause, failed⟩ := Scope.exists_error_of_firstUnknown unknown
  cases Registry.find_eq_error failed
  cases nominal with
  | plain handle =>
    rw [TypeUse.names,
      Scope.firstUnknown_cons_of_find (populated.find_name_of_knows handle)] at unknown
    cases unknown
  | named isName =>
    rw [TypeUse.names] at unknown
    cases List.mem_singleton.1 (List.mem_of_find?_eq_some unknown)
    rw [TypeUse.text, readOne_name isName, failed]
    rfl
  | @parameterized raw arguments handle nonempty inside =>
    have isName := populated.isReadable_scope.isName (populated.find_name_of_knows handle)
    -- the scan starts outside all brackets, and those of the use are the first to open
    have meets : Scan.MeetsName ⟨registry.scope, options, here⟩ {}
        ((TypeUse.parameterized raw arguments).chars ++ []) name :=
      Scan.meetsName_parameterized populated handle nonempty inside
        (fun argument mem => Scan.meetsUnknown populated (inside argument mem)) unknown
        (by rwa [List.length_nil, Nat.zero_add]) (.inl rfl) []
    rw [List.append_nil] at meets
    have trimmed := TypeUse.isTrimmed_parameterized isName arguments
    exact readOne_eq_error
      ((readAll_of_isTrimmed trimmed).trans (Scan.readBody_of_meetsName failed meets 0))

/-! ## Both ways -/

namespace Registry.ReachableFrom

/-- **Converting a use and reading its text come to the same.** The registry is one that calls lead
to from the standard one. A use is put together from raw types that are found in it, names that can
be told apart in a text, and applications to at least one argument, and the limit leaves room for
all brackets. When each name stands for something, the use is converted and its text is read, to
equal descriptors whose canonical text is the text of the use. Otherwise both fail, because of the
first name in reading order that stands for nothing. -/
theorem convert_or_readOne_text {registry : Registry} (reached : ReachableFrom standard registry)
    {use : TypeUse} (nominal : use.IsNominal registry.Knows) {options : ReadOptions}
    (room : use.depth ≤ options.maxDepth) (here there : Address) :
    (registry.scope.firstUnknown use.names = none
      ∧ ∃ converted read, Conversion.convert ⟨registry.scope, []⟩ here use = .ok converted
        ∧ Descriptor.readOne registry.scope options there use.text = .ok read
        ∧ (converted == read) = true ∧ converted.canonical = use.text)
    ∨ ∃ name, registry.scope.firstUnknown use.names = some name
      ∧ (registry.lookup name).1 = .error (.typeNotFound name)
      ∧ Conversion.convert ⟨registry.scope, []⟩ here use = .error (.typeNotFound name)
      ∧ Descriptor.readOne registry.scope options there use.text = .error (.typeNotFound name) := by
  have populated := reached.populated
  cases unknown : registry.scope.firstUnknown use.names with
  | none =>
    obtain ⟨descriptor, resolved, chars, depth, nodes⟩ :=
      Conversion.exists_means_of_firstUnknown [] populated nominal unknown here
    have text : descriptor.canonical = use.text := String.toList_inj.1 chars
    have read : Descriptor.readOne registry.scope options there descriptor.canonical = _ :=
      Descriptor.readOne_canonical populated.isReadable_scope (fun node mem => (nodes node mem).2)
        (depth.trans_le room)
    rw [text] at read
    refine .inl ⟨rfl, descriptor, _, ?_, read, ?_, text⟩
    · rw [Conversion.convert, resolved]
      rfl
    · exact BEq.symm (Descriptor.erased_beq (fun node mem => (nodes node mem).1) _)
  | some name =>
    refine .inr ⟨name, rfl, ?_, ?_, ?_⟩
    · obtain ⟨cause, failed⟩ := Scope.exists_error_of_firstUnknown unknown
      cases find_eq_error failed
      exact failed
    · rw [Conversion.convert, Conversion.resolve_of_firstUnknown [] populated nominal unknown]
      rfl
    · exact Descriptor.readOne_of_firstUnknown populated nominal room unknown there

/-- In the standard registry a use with two unknown names is not converted, and its text is not
read, because of the first of them. -/
theorem convert_or_readOne_text_missing :
    let object := RawType.ofDeclaration (.top standardTop)
    let use := TypeUse.parameterized object
      [.plain (.ofDeclaration (.primitive .int)), .parameterized object [.named "Missing"],
        .named "Gone"]
    ReachableFrom standard standard ∧ use.IsNominal standard.Knows ∧ use.depth ≤ 2
      ∧ use.text = "java.lang.Object<int, java.lang.Object<Missing>, Gone>"
      ∧ Conversion.convert ⟨standard.scope, []⟩ ⟨0, []⟩ use = .error (.typeNotFound "Missing")
      ∧ Descriptor.readOne standard.scope ⟨2, false⟩ ⟨1, []⟩ use.text
        = .error (.typeNotFound "Missing") := by
  intro object use
  have reached : ReachableFrom standard standard := .start
  have objectFound : standard.scope.find object.name = .ok object := by
    have name : object.name = standardTop := by decide
    rw [name]
    exact populated_standard.find_standardTop
  have intFound : standard.scope.find Primitive.int.name
      = .ok (.ofDeclaration (.primitive .int)) := populated_standard.find_primitive .int
  have missing : standard.scope.find "Missing" = .error (.typeNotFound "Missing") := by
    have free : standard.declared? "Missing" = none :=
      declared?_standard_eq_none (by decide) (by decide)
    show standard.find "Missing" = _
    rw [populated_standard.find_eq, resolve?, free]
    rfl
  have inner : (TypeUse.parameterized object [.named "Missing"]).IsNominal standard.Knows :=
    .parameterized ⟨_, objectFound⟩ (List.cons_ne_nil _ _)
      (List.forall_mem_singleton.2 (.named (by decide)))
  have nominal : use.IsNominal standard.Knows := by
    refine .parameterized ⟨_, objectFound⟩ (List.cons_ne_nil _ _) ?_
    simp only [List.forall_mem_cons, List.not_mem_nil, false_implies, implies_true, and_true]
    exact ⟨.plain ⟨_, intFound⟩, inner, .named (by decide)⟩
  have room : use.depth ≤ 2 := by
    simp only [use, TypeUse.depth, List.map_cons, List.map_nil]
    decide
  have text : use.text = "java.lang.Object<int, java.lang.Object<Missing>, Gone>" := by
    simp only [use, TypeUse.text, List.map_cons, List.map_nil]
    decide
  have unknown : standard.scope.firstUnknown use.names = some "Missing" := by
    have names : use.names = [object.name, Primitive.int.name, object.name, "Missing", "Gone"] := by
      simp only [use, TypeUse.names, List.flatMap_cons, List.flatMap_nil]
      rfl
    rw [names, Scope.firstUnknown_cons_of_find objectFound,
      Scope.firstUnknown_cons_of_find intFound, Scope.firstUnknown_cons_of_find objectFound,
      Scope.firstUnknown, List.find?_cons, missing]
    rfl
  let options : ReadOptions := ⟨2, false⟩
  have fits : use.depth ≤ options.maxDepth := room
  have failed := convert_or_readOne_text reached nominal fits ⟨0, []⟩ ⟨1, []⟩
  rw [unknown] at failed
  obtain ⟨none, -⟩ | ⟨name, same, -, converted, read⟩ := failed
  · cases none
  · cases same
    exact ⟨reached, nominal, room, text, converted, read⟩

end Registry.ReachableFrom

end GenericTypes
