import GenericTypes.Proofs.Descriptor.Equality
import GenericTypes.Proofs.Descriptor.Soundness

/-! # Reading back what was written

The canonical text of a descriptor is read back as the descriptor without markers, as long as the
limit leaves room for all its brackets. When it does not, reading stops at the first bracket that
has no room. -/

namespace GenericTypes

namespace Scan

open Descriptor

variable {context : Context} {progress after : Progress} {text : List Char} {c : Char}

/-! ## Texts with room for all brackets -/

/-- A text that comes from canonical texts by other spacing can be read up to the end of the last
descriptor. -/
theorem exists_runs_of_respaced (scope : context.scope.IsReadable) {descriptors : List Descriptor}
    (nonempty : descriptors ≠ [])
    (readable : ∀ descriptor ∈ descriptors, Readable context 0 descriptor)
    (respaced : Respaced (listed (descriptors.map chars)) text) :
    ∃ items phase, Runs context {} text ⟨[], items, phase⟩
      ∧ Ends context items phase descriptors := by
  rw [← List.append_nil (listed _)] at respaced
  have reads : Reads context {} text descriptors [] := by
    apply reads_listed nonempty _ (.inl rfl) respaced
    intro descriptor mem _ _ _ _
    exact reads_chars scope (readable descriptor mem)
  obtain ⟨part, rest, items, phase, rfl, left, runs, ends⟩ := reads
  rw [left.eq_nil, List.append_nil]
  exact ⟨items, phase, runs, ends⟩

/-- Such a text is read without an error. -/
theorem readBody_of_respaced (scope : context.scope.IsReadable) {descriptors : List Descriptor}
    (readable : ∀ descriptor ∈ descriptors, Readable context 0 descriptor)
    (respaced : Respaced (listed (descriptors.map chars)) text) (start : Nat) :
    readBody context start text = .ok (erasedAll context.here 0 descriptors) := by
  by_cases none : descriptors = []
  · subst none
    rw [respaced.eq_nil]
    rfl
  · obtain ⟨items, phase, runs, ends⟩ := exists_runs_of_respaced scope none readable respaced
    exact readBody_scan start runs ⟨rfl, .inr ends⟩

/-- What can be read up to the end of an argument has no blanks at its ends. -/
theorem isTrimmed_of_runs {items : List Descriptor} (runs : Runs context {} text after)
    (ends : Ends context after.items after.phase items) : IsTrimmed text where
  head_eq := by
    intro c first
    apply eq_false_of_ne_true
    intro blank
    cases runs with
    | nil => cases first
    | cons step runs =>
      cases first
      -- nothing has been read yet, so no comma has
      cases (step.phase_of_isBlank blank).1
  last_eq := by
    intro c last
    apply eq_false_of_ne_true
    intro blank
    obtain ⟨part, rfl⟩ := List.getLast?_eq_some_iff.1 last
    obtain ⟨next, -, runs⟩ := runs.exists_of_append
    cases runs with
    | cons step rest =>
      cases rest
      -- no argument ends behind a blank
      rw [(step.phase_of_isBlank blank).2] at ends
      cases ends

/-! ## Texts without room for all brackets -/

/-- The same place to look names up with another limit. -/
def Context.withLimit (context : Context) (limit : Nat) : Context :=
  { context with options := { context.options with maxDepth := limit } }

/-- How an argument can end does not depend on the limit. -/
theorem Ends.ofWithLimit {limit : Nat} {items items' : List Descriptor} {phase : Phase}
    (ends : Ends (context.withLimit limit) items phase items') :
    Ends context items phase items' := by
  cases ends with
  | name resolved plain => exact .name resolved plain
  | closed nonempty => exact .closed nonempty

/-- A character that can be read under some limit can be read under another one, or opens brackets
that have no room there. -/
theorem Steps.cases_of_withLimit {limit : Nat}
    (steps : Steps (context.withLimit limit) progress c after) :
    Steps context progress c after
      ∨ c = '<' ∧ (∃ reversed, progress.phase = .name reversed)
        ∧ context.options.maxDepth ≤ progress.frames.length := by
  cases steps with
  | opens inLimit resolved =>
    rename_i frames items reversed raw
    by_cases room : frames.length < context.options.maxDepth
    · exact .inl (.opens room resolved)
    · exact .inr ⟨rfl, ⟨reversed, rfl⟩, Nat.not_lt.1 room⟩
  | comma ends => exact .inl (.comma ends.ofWithLimit)
  | closes ends => exact .inl (.closes ends.ofWithLimit)
  | blank isBlank => exact .inl (.blank isBlank)
  | first isName start => exact .inl (.first isName start)
  | more isName => exact .inl (.more isName)

/-- A text that can be read under some limit can be read under another one, or up to brackets that
have no room there. -/
theorem Runs.cases_of_withLimit {limit : Nat}
    (runs : Runs (context.withLimit limit) progress text after) :
    Runs context progress text after
      ∨ ∃ part rest next, text = part ++ '<' :: rest ∧ Runs context progress part next
        ∧ (∃ reversed, next.phase = .name reversed)
        ∧ context.options.maxDepth ≤ next.frames.length := by
  induction runs with
  | nil progress => exact .inl (.nil progress)
  | cons step runs ih =>
    rename_i progress next after c rest
    rcases step.cases_of_withLimit with step | ⟨rfl, pending, full⟩
    · rcases ih with runs | ⟨part, behind, last, rfl, runs, pending, full⟩
      · exact .inl (.cons step runs)
      · exact .inr ⟨c :: part, behind, last, rfl, .cons step runs, pending, full⟩
    · exact .inr ⟨[], rest, progress, rfl, .nil progress, pending, full⟩

/-- Each opening bracket opens a frame and each closing bracket closes one. -/
theorem Runs.length_frames (runs : Runs context progress text after) :
    after.frames.length + text.count '>' = progress.frames.length + text.count '<' := by
  induction runs with
  | nil progress => rfl
  | cons step runs ih =>
    rw [List.count_cons, List.count_cons]
    -- only the two brackets change the number of frames and the counts
    cases step with
    | opens inLimit resolved =>
      simp at ih ⊢
      omega
    | comma ends => simpa using ih
    | closes ends =>
      simp at ih ⊢
      omega
    | blank isBlank =>
      obtain ⟨noOpen, -, noClose⟩ := ne_of_isBlank isBlank
      simpa [noOpen, noClose] using ih
    | first isName start => simpa [isName.1, isName.2.2.1] using ih
    | more isName => simpa [isName.1, isName.2.2.1] using ih

/-- From the start of a text, as many brackets are open as have been opened and not closed. -/
theorem Runs.length_frames_of_start (runs : Runs context {} text after) :
    after.frames.length + text.count '>' = text.count '<' := by
  have level := runs.length_frames
  rwa [List.length_nil, Nat.zero_add] at level

/-- An opening bracket that can be read has room. -/
theorem Steps.length_lt (steps : Steps context progress '<' after) :
    progress.frames.length < context.options.maxDepth := by
  cases steps with
  | opens inLimit resolved => exact inLimit
  | blank isBlank => exact absurd isBlank (by decide)
  | first isName start => exact absurd rfl isName.1
  | more isName => exact absurd rfl isName.1

/-- A scan never has more brackets open than the limit allows. -/
theorem Steps.length_le (steps : Steps context progress c after)
    (within : progress.frames.length ≤ context.options.maxDepth) :
    after.frames.length ≤ context.options.maxDepth := by
  cases steps with
  | opens inLimit resolved => exact inLimit
  | closes ends => exact Nat.le_of_succ_le within
  | _ => exact within

/-- From the start of a text, no more brackets are open than the limit allows. -/
theorem Runs.length_le (runs : Runs context {} text after) :
    after.frames.length ≤ context.options.maxDepth :=
  runs.preserves (fun progress => progress.frames.length ≤ context.options.maxDepth)
    Steps.length_le (Nat.zero_le _)

/-- Whether the first opening bracket of a text that stands inside `limit` others stands at a byte
offset. -/
def IsFirstBeyond (limit : Nat) (text : List Char) (position : Nat) : Prop :=
  ∃ before behind, text = before ++ '<' :: behind ∧ position = byteLength before
    ∧ before.count '<' = before.count '>' + limit
    ∧ ∀ earlier later, before = earlier ++ '<' :: later →
      earlier.count '<' < earlier.count '>' + limit

/-- Reading stops at the first brackets that have no room. -/
theorem readBody_eq_tooDeep {part rest : List Char} (runs : Runs context {} part after)
    (pending : ∃ reversed, after.phase = .name reversed)
    (full : context.options.maxDepth ≤ after.frames.length) :
    readBody context 0 (part ++ '<' :: rest)
        = .error (.malformed (byteLength part) (.tooDeep context.options.maxDepth))
      ∧ IsFirstBeyond context.options.maxDepth (part ++ '<' :: rest) (byteLength part) := by
  have level := runs.length_frames_of_start
  constructor
  · obtain ⟨frames, items, phase⟩ := after
    obtain ⟨reversed, rfl⟩ := pending
    -- the scan asks for room before it looks the name up
    have stopped : (Progress.scan context ⟨frames, items, .name reversed⟩).step context
        (0 + byteLength part) '<'
          = .error (.malformed (byteLength part) (.tooDeep context.options.maxDepth)) := by
      have many : context.options.maxDepth
          ≤ (Progress.scan context ⟨frames, items, .name reversed⟩).unclosed.length := by
        rw [Progress.scan, length_drafts]
        exact full
      rw [Nat.zero_add]
      show openBracket context _ _ reversed = _
      rw [openBracket, if_pos many]
      rfl
    show (run context 0 (Progress.scan context {}) _ >>= _) = _
    rw [run_append, (run_eq_ok_iff isValid_start).2 ⟨_, runs, rfl⟩]
    show (run context (0 + byteLength part) _ ('<' :: rest) >>= _) = _
    rw [run, stopped]
    rfl
  · refine ⟨part, rest, rfl, rfl, ?_, ?_⟩
    · have within := runs.length_le
      omega
    · -- in front of this bracket there is room for every other one
      rintro earlier later rfl
      obtain ⟨next, first, second⟩ := runs.exists_of_append
      have level := first.length_frames_of_start
      cases second with
      | cons step others =>
        have inLimit := step.length_lt
        omega

end Scan

namespace Descriptor

variable {scope : Scope} {descriptors : List Descriptor}

/-! ## Canonical texts -/

/-- Canonical texts with their own spacing make up a list with its own spacing. -/
theorem respaced_listed (same : ∀ descriptor ∈ descriptors,
      Respaced descriptor.chars descriptor.chars) :
    Respaced (listed (descriptors.map chars)) (listed (descriptors.map chars)) := by
  induction descriptors with
  | nil => exact .nil
  | cons first rest ih =>
    rw [List.forall_mem_cons] at same
    cases rest with
    | nil =>
      rw [List.map_singleton, listed_singleton]
      exact same.1
    | cons second rest =>
      have space : isBlank ' ' = true := by decide
      rw [List.map_cons, List.map_cons, listed_cons_cons, List.append_assoc]
      exact same.1.append (.blank space (ih same.2))

/-- The canonical text of a descriptor has its own spacing. -/
theorem respaced_chars {descriptor : Descriptor}
    (names : ∀ node ∈ descriptor.nodes, IsName node.raw.name.toList) :
    Respaced descriptor.chars descriptor.chars := by
  induction descriptor using inductionOnArguments with
  | step descriptor ih =>
    rw [forall_nodes_iff] at names
    have name : Respaced descriptor.raw.name.toList descriptor.raw.name.toList :=
      .refl fun c mem => (names.1.2 c mem).2.1
    rw [chars_eq]
    split
    · rw [List.append_nil]
      exact name
    · have inside := respaced_listed fun argument mem => ih argument mem (names.2 argument mem)
      have close : Respaced ['>'] ['>'] := .keep (by decide) .nil
      exact name.append (.keep (by decide) (inside.append close))

/-- A text without blanks at its ends is read as it is. -/
theorem readAll_of_isTrimmed {options : ReadOptions} {here : Address} {text : String}
    (trimmed : IsTrimmed text.toList) :
    readAll scope options here text = Scan.readBody ⟨scope, options, here⟩ 0 text.toList := by
  rw [readAll, trim_eq_self trimmed, trimStart_eq_self trimmed.head_eq, Nat.sub_self]

variable {context : Scan.Context}

/-- Canonical texts have their own spacing when all raw types are found. -/
theorem respaced_canonicalList (readable : context.scope.IsReadable)
    (found : ∀ descriptor ∈ descriptors, ∀ node ∈ descriptor.nodes,
      context.scope.find node.raw.name = .ok node.raw) :
    Respaced (listed (descriptors.map chars)) (canonicalList descriptors).toList := by
  rw [toList_canonicalList]
  apply respaced_listed
  intro descriptor mem
  apply respaced_chars
  intro node inside
  exact readable.isName (found descriptor mem node inside)

/-- Canonical texts can be read under some limit when all raw types are found. -/
theorem exists_limit_runs (readable : context.scope.IsReadable) (nonempty : descriptors ≠ [])
    (found : ∀ descriptor ∈ descriptors, ∀ node ∈ descriptor.nodes,
      context.scope.find node.raw.name = .ok node.raw) :
    ∃ limit items phase,
      Scan.Runs (context.withLimit limit) {} (canonicalList descriptors).toList ⟨[], items, phase⟩
        ∧ Scan.Ends (context.withLimit limit) items phase descriptors := by
  -- the depth of the deepest descriptor is a limit that leaves room for all of them
  let limit := (descriptors.map depth).foldr Nat.max 0
  have deepest := foldr_max_le_iff.1 (Nat.le_refl limit)
  rw [List.forall_mem_map] at deepest
  have fits : ∀ descriptor ∈ descriptors, Scan.Readable (context.withLimit limit) 0 descriptor := by
    intro descriptor mem
    exact Scan.readable_zero_iff.2 ⟨found descriptor mem, deepest descriptor mem⟩
  have scope : (context.withLimit limit).scope.IsReadable := readable
  exact ⟨limit, Scan.exists_runs_of_respaced scope nonempty fits
    (respaced_canonicalList readable found)⟩

/-- Canonical texts have no blanks at their ends when all raw types are found. -/
theorem isTrimmed_canonicalList (readable : context.scope.IsReadable)
    (found : ∀ descriptor ∈ descriptors, ∀ node ∈ descriptor.nodes,
      context.scope.find node.raw.name = .ok node.raw) :
    IsTrimmed (canonicalList descriptors).toList := by
  by_cases none : descriptors = []
  · subst none
    exact ⟨nofun, nofun⟩
  · obtain ⟨limit, items, phase, runs, ends⟩ := exists_limit_runs readable none found
    exact Scan.isTrimmed_of_runs runs ends

/-- Canonical texts are read back, without markers, when the limit leaves room for them. -/
theorem readAll_canonicalList {options : ReadOptions} {here : Address} (readable : scope.IsReadable)
    (found : ∀ descriptor ∈ descriptors, ∀ node ∈ descriptor.nodes,
      scope.find node.raw.name = .ok node.raw)
    (room : ∀ descriptor ∈ descriptors, descriptor.depth ≤ options.maxDepth) :
    readAll scope options here (canonicalList descriptors)
      = .ok (erasedAll here 0 descriptors) := by
  let context : Scan.Context := ⟨scope, options, here⟩
  have readable : context.scope.IsReadable := readable
  have fits : ∀ descriptor ∈ descriptors, Scan.Readable context 0 descriptor := by
    intro descriptor mem
    exact Scan.readable_zero_iff.2 ⟨found descriptor mem, room descriptor mem⟩
  rw [readAll_of_isTrimmed (isTrimmed_canonicalList readable found)]
  exact Scan.readBody_of_respaced readable fits (respaced_canonicalList readable found) 0

/-- Canonical texts are not read when the limit leaves no room for them, and the first bracket
without room is where reading stops. -/
theorem exists_readAll_canonicalList_eq_tooDeep {limit : Nat} {here : Address}
    (readable : scope.IsReadable)
    (found : ∀ descriptor ∈ descriptors, ∀ node ∈ descriptor.nodes,
      scope.find node.raw.name = .ok node.raw)
    {descriptor : Descriptor} (mem : descriptor ∈ descriptors) (deep : limit < descriptor.depth) :
    ∃ position, readAll scope ⟨limit, false⟩ here (canonicalList descriptors)
        = .error (.malformed position (.tooDeep limit))
      ∧ Scan.IsFirstBeyond limit (canonicalList descriptors).toList position := by
  let context : Scan.Context := ⟨scope, ⟨limit, false⟩, here⟩
  have readable : context.scope.IsReadable := readable
  rw [readAll_of_isTrimmed (isTrimmed_canonicalList readable found)]
  obtain ⟨wide, items, phase, runs, ends⟩ :=
    exists_limit_runs readable (List.ne_nil_of_mem mem) found
  rcases runs.cases_of_withLimit with runs | ⟨part, rest, next, split, runs, pending, full⟩
  · -- everything would have been read within the limit
    have within := (runs.fits readable (.outside nofun)).ends readable ends.ofWithLimit
    have room := (Scan.readable_zero_iff.1 (within.readable descriptor mem)).2
    exact absurd room (Nat.not_le.2 deep)
  · rw [split]
    exact ⟨byteLength part, Scan.readBody_eq_tooDeep runs pending full⟩

/-- The canonical text of a single descriptor is its list. -/
theorem canonicalList_singleton (descriptor : Descriptor) :
    canonicalList [descriptor] = descriptor.canonical := by
  rw [← String.toList_inj, toList_canonicalList, List.map_singleton, listed_singleton, chars]

/-- A text with one descriptor is read as that descriptor. -/
theorem readOne_eq_ok {options : ReadOptions} {here : Address} {text : String}
    {descriptor : Descriptor} (read : readAll scope options here text = .ok [descriptor]) :
    readOne scope options here text = .ok descriptor := by
  rw [readOne, read]
  rfl

/-- The canonical text of a descriptor is read back, without markers, when the limit leaves room for
it. -/
theorem readOne_canonical {options : ReadOptions} {here : Address} (readable : scope.IsReadable)
    {descriptor : Descriptor}
    (found : ∀ node ∈ descriptor.nodes, scope.find node.raw.name = .ok node.raw)
    (room : descriptor.depth ≤ options.maxDepth) :
    readOne scope options here descriptor.canonical
      = .ok (descriptor.erased (here.child 0)) := by
  apply readOne_eq_ok
  rw [← canonicalList_singleton]
  exact readAll_canonicalList readable (List.forall_mem_singleton.2 found)
    (List.forall_mem_singleton.2 room)

/-- A text that is not read is not read as one descriptor either. -/
theorem readOne_eq_error {options : ReadOptions} {here : Address} {text : String}
    {cause : DescriptorError} (failed : readAll scope options here text = .error cause) :
    readOne scope options here text = .error cause := by
  rw [readOne, failed]
  rfl

/-- Erasing keeps the canonical texts of a list. -/
theorem canonicalList_erasedAll (here : Address) (index : Nat) (descriptors : List Descriptor) :
    canonicalList (erasedAll here index descriptors) = canonicalList descriptors := by
  have texts : (erasedAll here index descriptors).map canonical = descriptors.map canonical :=
    map_erasedAll (fun descriptor _ here => canonical_erased here descriptor) here index
  rw [canonicalList, canonicalList, texts]

end Descriptor

open Descriptor in
/-- **Canonical texts are read back.** The registry is one that calls lead to from the standard one,
and knows all raw types. When the limit leaves room for all brackets, the descriptors come back
without their markers and values: with the same canonical texts, and equal to those that had no
markers. When it does not, reading stops at the first opening bracket that stands inside `limit`
others. This holds of a descriptor by itself, whatever value it carries, and of lists of
descriptors. -/
theorem Registry.ReachableFrom.read_canonical {α : Type} {registry : Registry}
    (reached : Registry.ReachableFrom standard registry) (limit : Nat) (here : Address) :
    (∀ carrier : Carrier α, (∀ node ∈ carrier.descriptor.nodes, registry.Knows node.raw) →
      (carrier.descriptor.depth ≤ limit → ∃ result,
        readOne registry.scope ⟨limit, false⟩ here carrier.descriptor.canonical = .ok result
          ∧ result = carrier.descriptor.erased (here.child 0)
          ∧ result.canonical = carrier.descriptor.canonical
          ∧ ((∀ node ∈ carrier.descriptor.nodes, node.identity = false) →
            (result == carrier.descriptor) = true))
      ∧ (limit < carrier.descriptor.depth → ∃ position,
        readOne registry.scope ⟨limit, false⟩ here carrier.descriptor.canonical
            = .error (.malformed position (.tooDeep limit))
          ∧ Scan.IsFirstBeyond limit carrier.descriptor.canonical.toList position))
    ∧ ∀ descriptors : List Descriptor,
      (∀ descriptor ∈ descriptors, ∀ node ∈ descriptor.nodes, registry.Knows node.raw) →
      ((∀ descriptor ∈ descriptors, descriptor.depth ≤ limit) → ∃ results,
        readAll registry.scope ⟨limit, false⟩ here (canonicalList descriptors) = .ok results
          ∧ results = erasedAll here 0 descriptors
          ∧ results.map canonical = descriptors.map canonical
          ∧ ((∀ descriptor ∈ descriptors, ∀ node ∈ descriptor.nodes, node.identity = false) →
            (results == descriptors) = true))
      ∧ ((∃ descriptor ∈ descriptors, limit < descriptor.depth) → ∃ position,
        readAll registry.scope ⟨limit, false⟩ here (canonicalList descriptors)
            = .error (.malformed position (.tooDeep limit))
          ∧ Scan.IsFirstBeyond limit (canonicalList descriptors).toList position) := by
  have populated := reached.populated
  have readable := populated.isReadable_scope
  have found : ∀ {descriptor : Descriptor}, (∀ node ∈ descriptor.nodes, registry.Knows node.raw) →
      ∀ node ∈ descriptor.nodes, registry.scope.find node.raw.name = .ok node.raw :=
    fun known node mem => populated.find_name_of_knows (known node mem)
  constructor
  · intro carrier known
    have found : ∀ descriptor ∈ [carrier.descriptor], ∀ node ∈ descriptor.nodes,
        registry.scope.find node.raw.name = .ok node.raw :=
      List.forall_mem_singleton.2 (found known)
    rw [← canonicalList_singleton]
    constructor
    · intro room
      have room : ∀ descriptor ∈ [carrier.descriptor], descriptor.depth ≤ limit :=
        List.forall_mem_singleton.2 room
      have read : readAll registry.scope ⟨limit, false⟩ here (canonicalList [carrier.descriptor])
          = .ok (erasedAll here 0 [carrier.descriptor]) := readAll_canonicalList readable found room
      refine ⟨_, readOne_eq_ok read, rfl, ?_, fun plain => ?_⟩
      · rw [canonical_erased, canonicalList_singleton]
      · exact erased_beq plain _
    · intro deep
      obtain ⟨position, failed, first⟩ := exists_readAll_canonicalList_eq_tooDeep readable found
        List.mem_cons_self deep
      exact ⟨position, readOne_eq_error failed, first⟩
  · intro descriptors known
    have found := fun descriptor mem => found (known descriptor mem)
    constructor
    · intro room
      refine ⟨_, readAll_canonicalList readable found room, rfl, ?_, fun plain => ?_⟩
      · exact map_erasedAll (fun descriptor _ here => canonical_erased here descriptor) here 0
      · exact erasedAll_beq plain here 0
    · rintro ⟨descriptor, mem, deep⟩
      exact exists_readAll_canonicalList_eq_tooDeep readable found mem deep

open Descriptor in
/-- In the standard registry a text with a single pair of brackets is read back without the marker
inside them when the limit is one, and not at all when the limit is zero. -/
theorem Registry.ReachableFrom.read_canonical_marker :
    Registry.ReachableFrom standard standard
    ∧ readOne standard.scope ⟨1, false⟩ ⟨1, []⟩ "java.lang.Object<int>"
        = .ok ⟨⟨1, [0]⟩, .ofDeclaration (.top standardTop),
          [⟨⟨1, [0, 0]⟩, .ofDeclaration (.primitive .int), [], false⟩], false⟩
    ∧ ∃ position, readOne standard.scope ⟨0, false⟩ ⟨1, []⟩ "java.lang.Object<int>"
        = .error (.malformed position (.tooDeep 0)) := by
  let inner : Descriptor := ⟨⟨0, [0]⟩, .ofDeclaration (.primitive .int), [], true⟩
  let carrier : Carrier Nat := ⟨⟨⟨0, []⟩, .ofDeclaration (.top standardTop), [inner], false⟩, 7⟩
  have object : standard.Knows (.ofDeclaration (.top standardTop)) :=
    ⟨_, populated_standard.find_standardTop⟩
  have int : standard.Knows (.ofDeclaration (.primitive .int)) :=
    ⟨_, populated_standard.find_primitive .int⟩
  have known : ∀ node ∈ carrier.descriptor.nodes, standard.Knows node.raw := by
    rw [forall_nodes_iff]
    refine ⟨object, List.forall_mem_singleton.2 ?_⟩
    rw [forall_nodes_iff]
    exact ⟨int, nofun⟩
  have room : carrier.descriptor.depth ≤ 1 := by
    have flat : inner.depth ≤ 0 := depth_le_iff.2 nofun
    exact depth_le_iff.2 (List.forall_mem_singleton.2 (Nat.lt_succ_of_le flat))
  have deep : 0 < carrier.descriptor.depth := by
    apply Nat.lt_of_not_le
    intro flat
    exact Nat.not_lt_zero _ (depth_le_iff.1 flat inner List.mem_cons_self)
  have text : carrier.descriptor.canonical = "java.lang.Object<int>" := by
    rw [← String.toList_inj]
    show carrier.descriptor.chars = _
    rw [chars_eq]
    show "java.lang.Object".toList ++ '<' :: (listed [inner.chars] ++ ['>']) = _
    rw [listed_singleton, chars_eq]
    decide
  have reached : ReachableFrom standard standard := .start
  refine ⟨reached, ?_, ?_⟩
  · obtain ⟨result, read, erased, -⟩ :=
      ((read_canonical reached 1 ⟨1, []⟩).1 carrier known).1 room
    rw [← text, read, erased]
    rfl
  · obtain ⟨position, failed, -⟩ :=
      ((read_canonical reached 0 ⟨1, []⟩).1 carrier known).2 deep
    rw [← text]
    exact ⟨position, failed⟩

end GenericTypes
