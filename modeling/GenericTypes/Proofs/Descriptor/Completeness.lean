import GenericTypes.Proofs.Descriptor.Scan
import GenericTypes.Proofs.Registry.Names
import GenericTypes.Proofs.Text.Spacing

/-! # Canonical texts are read

A scan reads every text that comes from canonical texts by other spacing, and has then read the
descriptors. What it needs is that all raw types are found under their names, and that the limit
leaves room for the brackets. -/

namespace GenericTypes

namespace Scan

open Descriptor

/-! ## Descriptors that can be read -/

/-- Whether a descriptor can be read inside so many brackets. -/
structure Readable (context : Context) (level : Nat) (descriptor : Descriptor) : Prop where
  /-- All raw types are found under their names. -/
  found : ∀ node ∈ descriptor.nodes, context.scope.find node.raw.name = .ok node.raw
  /-- The limit leaves room for all brackets. -/
  depth_le : level + descriptor.depth ≤ context.options.maxDepth

variable {context : Context} {frames : List Frame} {items : List Descriptor} {phase : Phase}
  {source text : List Char}

/-- A descriptor can be read when its raw type is found and its arguments can be read inside one
more pair of brackets. -/
theorem readable_iff {level : Nat} {descriptor : Descriptor} :
    Readable context level descriptor ↔
      context.scope.find descriptor.raw.name = .ok descriptor.raw
        ∧ level ≤ context.options.maxDepth
        ∧ ∀ argument ∈ descriptor.arguments, Readable context (level + 1) argument := by
  constructor
  · rintro ⟨found, depth⟩
    rw [forall_nodes_iff] at found
    refine ⟨found.1, Nat.le_trans (Nat.le_add_right level _) depth, fun argument mem => ?_⟩
    -- what the level leaves of the limit is a bound for the depth
    have room : descriptor.depth ≤ context.options.maxDepth - level := by omega
    have inner := depth_le_iff.1 room argument mem
    exact ⟨found.2 argument mem, by omega⟩
  · rintro ⟨found, inLimit, arguments⟩
    refine ⟨forall_nodes_iff.2 ⟨found, fun argument mem => (arguments argument mem).found⟩, ?_⟩
    have room : descriptor.depth ≤ context.options.maxDepth - level := by
      rw [depth_le_iff]
      intro argument mem
      have inner := (arguments argument mem).depth_le
      omega
    omega

/-- Outside all brackets only the brackets of the descriptor itself need room. -/
theorem readable_zero_iff {descriptor : Descriptor} :
    Readable context 0 descriptor ↔
      (∀ node ∈ descriptor.nodes, context.scope.find node.raw.name = .ok node.raw)
        ∧ descriptor.depth ≤ context.options.maxDepth := by
  constructor
  · rintro ⟨found, depth⟩
    rw [Nat.zero_add] at depth
    exact ⟨found, depth⟩
  · rintro ⟨found, depth⟩
    refine ⟨found, ?_⟩
    rwa [Nat.zero_add]

/-- Characters stand for the raw type that is found under the name they make up. -/
theorem resolve_eq_ok_iff {reversed : List Char} {raw : RawType} :
    resolve context reversed = .ok raw ↔
      context.scope.find (String.ofList reversed.reverse) = .ok raw := by
  rw [resolve]
  cases context.scope.find (String.ofList reversed.reverse) with
  | error cause => exact ⟨nofun, nofun⟩
  | ok known =>
    rw [Except.mapError, Except.ok.injEq, Except.ok.injEq]

/-! ## Names and separators -/

/-- The characters of a name are read one by one. -/
theorem runs_more {part : List Char} (isName : ∀ c ∈ part, IsNameChar c) (reversed : List Char) :
    Runs context ⟨frames, items, .name reversed⟩ part
      ⟨frames, items, .name (part.reverse ++ reversed)⟩ := by
  induction part generalizing reversed with
  | nil => exact .nil _
  | cons c part ih =>
    rw [List.forall_mem_cons] at isName
    rw [List.reverse_cons, List.append_assoc]
    exact .cons (.more isName.1) (ih isName.2 (c :: reversed))

/-- A name is read where an argument can start. -/
theorem runs_name {name : List Char} (isName : IsName name)
    (start : phase = .fresh ∨ phase = .separated) :
    Runs context ⟨frames, items, phase⟩ name ⟨frames, items, .name name.reverse⟩ := by
  cases name with
  | nil => exact absurd rfl isName.1
  | cons c rest =>
    have letters := List.forall_mem_cons.1 isName.2
    rw [List.reverse_cons]
    exact .cons (.first letters.1 start) (runs_more letters.2 [c])

/-- Names hold no commas. -/
theorem ne_comma_of_isName {name : List Char} (isName : IsName name) : ∀ c ∈ name, c ≠ ',' :=
  fun c mem => (isName.2 c mem).2.1

/-- One blank or none behind a comma leads to where an argument can start. -/
theorem exists_runs_blanks {blanks : List Char}
    (few : blanks = [] ∨ ∃ b, isBlank b = true ∧ blanks = [b]) :
    ∃ start, Runs context ⟨frames, items, .separated⟩ blanks ⟨frames, items, start⟩
      ∧ (start = .fresh ∨ start = .separated) := by
  rcases few with rfl | ⟨b, blank, rfl⟩
  · exact ⟨.separated, .nil _, .inr rfl⟩
  · exact ⟨.fresh, .singleton (.blank blank), .inl rfl⟩

/-! ## Descriptors and lists of descriptors -/

/-- Whether a scan reads some descriptors from the front of a text, up to the end of the last of
them, and leaves a text that comes from `source`. -/
def Reads (context : Context) (progress : Progress) (text : List Char)
    (descriptors : List Descriptor) (source : List Char) : Prop :=
  ∃ part rest items phase, text = part ++ rest ∧ Respaced source rest
    ∧ Runs context progress part ⟨progress.frames, items, phase⟩
    ∧ Ends context items phase (progress.items ++ descriptors)

/-- A list of descriptors is read when each of them is read where it stands. -/
theorem reads_listed {descriptors : List Descriptor} (nonempty : descriptors ≠ [])
    (reads : ∀ descriptor ∈ descriptors, ∀ {items phase source text},
      (phase = .fresh ∨ phase = .separated) → Respaced (descriptor.chars ++ source) text →
        Reads context ⟨frames, items, phase⟩ text [descriptor] source)
    (start : phase = .fresh ∨ phase = .separated)
    (respaced : Respaced (listed (descriptors.map chars) ++ source) text) :
    Reads context ⟨frames, items, phase⟩ text descriptors source := by
  induction descriptors generalizing items phase text with
  | nil => exact absurd rfl nonempty
  | cons first rest ih =>
    rw [List.forall_mem_cons] at reads
    cases rest with
    | nil =>
      rw [List.map_singleton, listed_singleton] at respaced
      exact reads.1 start respaced
    | cons second rest =>
      rw [List.map_cons, List.map_cons, listed_cons_cons, List.append_assoc, List.append_assoc]
        at respaced
      -- the first descriptor, the comma behind it, and its blank
      obtain ⟨part, behind, read, ended, rfl, behindRespaced, runs, ends⟩ :=
        reads.1 start respaced
      obtain ⟨blanks, tail, rfl, tailRespaced, few⟩ := behindRespaced.exists_of_separator
      obtain ⟨next, blanksRun, nextStart⟩ := exists_runs_blanks few
      -- the other descriptors
      obtain ⟨others, left, items', phase', rfl, leftRespaced, othersRun, othersEnd⟩ :=
        ih (List.cons_ne_nil _ _) reads.2 nextStart tailRespaced
      refine ⟨part ++ ',' :: (blanks ++ others), left, items', phase', ?_, leftRespaced, ?_, ?_⟩
      · simp only [List.append_assoc, List.cons_append]
      · exact runs.append (.cons (.comma ends) (blanksRun.append othersRun))
      · rw [List.append_assoc] at othersEnd
        exact othersEnd

/-- A descriptor is read from a text that comes from its canonical text by other spacing. -/
theorem reads_chars (scope : context.scope.IsReadable) {descriptor : Descriptor}
    (readable : Readable context frames.length descriptor)
    (start : phase = .fresh ∨ phase = .separated)
    (respaced : Respaced (descriptor.chars ++ source) text) :
    Reads context ⟨frames, items, phase⟩ text [descriptor] source := by
  induction descriptor using inductionOnArguments generalizing frames items phase source text with
  | step descriptor ih =>
    obtain ⟨found, inLimit, arguments⟩ := readable_iff.1 readable
    have isName := scope.isName found
    have resolved : resolve context descriptor.raw.name.toList.reverse = .ok descriptor.raw := by
      rw [resolve_eq_ok_iff, List.reverse_reverse, String.ofList_toList]
      exact found
    rw [chars_eq, List.append_assoc] at respaced
    obtain ⟨rest, rfl, restRespaced⟩ := respaced.exists_of_append (ne_comma_of_isName isName)
    have nameRuns : Runs context ⟨frames, items, phase⟩ descriptor.raw.name.toList
        ⟨frames, items, .name descriptor.raw.name.toList.reverse⟩ := runs_name isName start
    by_cases none : descriptor.arguments = []
    · -- the name is all there is
      rw [none] at restRespaced
      exact ⟨_, rest, items, _, rfl, restRespaced, nameRuns, .name resolved none⟩
    · have brackets := List.isEmpty_eq_false_iff.2 none
      rw [brackets, if_neg Bool.false_ne_true, List.cons_append, List.append_assoc] at restRespaced
      obtain ⟨inside, rfl, insideRespaced⟩ := restRespaced.exists_of_cons (by decide)
      -- the arguments are read inside the brackets, where nothing has been read before
      have insideReads : Reads context ⟨⟨items, descriptor.raw⟩ :: frames, [], .fresh⟩ inside
          descriptor.arguments ('>' :: source) := by
        apply reads_listed none _ (.inl rfl) insideRespaced
        intro argument mem _ _ _ _
        exact ih argument mem (arguments argument mem)
      obtain ⟨part, behind, read, ended, rfl, behindRespaced, runs, ends⟩ := insideReads
      obtain ⟨left, rfl, leftRespaced⟩ := behindRespaced.exists_of_cons (by decide)
      -- an argument can be read one level further in, so there is room for the brackets
      have room : frames.length < context.options.maxDepth := by
        obtain ⟨argument, mem⟩ := List.exists_mem_of_ne_nil _ none
        exact (readable_iff.1 (arguments argument mem)).2.1
      have argumentsEnd : Ends context read ended descriptor.arguments := ends
      refine ⟨descriptor.raw.name.toList ++ '<' :: (part ++ ['>']), left, items ++ [descriptor],
        .closed, ?_, leftRespaced, ?_, .closed (by simp)⟩
      · simp
      · exact nameRuns.append (.cons (.opens room resolved)
          (runs.append (.singleton (.closes argumentsEnd))))

end Scan

end GenericTypes
