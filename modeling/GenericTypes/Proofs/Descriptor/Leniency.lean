import GenericTypes.Proofs.Descriptor.Build
import GenericTypes.Proofs.Descriptor.Outcome

/-! # Reading with leniency

Leniency changes nothing but the end of a text that leaves brackets open. There it reads on as if
the brackets were closed, and takes a name that is still pending for a descriptor behind them.
`collapse` says what closing all brackets leaves. A strict scan comes to the same when the text in
front of the name is completed with closing brackets, where a comma at its end is dropped, and so is
an opening bracket, which leaves its raw type without arguments. -/

namespace GenericTypes

namespace Scan

open Descriptor

variable {context : Context} {frames : List Frame} {items items' : List Descriptor} {phase : Phase}
  {progress after : Progress} {text : List Char}

/-- The same place to read with leniency. -/
def Context.leniently (context : Context) : Context :=
  { context with options := { context.options with lenient := true } }

/-! ## Up to the end -/

/-- Leniency plays no part before the end of a text. -/
theorem run_leniently (position : Nat) (scan : Scan) (text : List Char) :
    run context.leniently position scan text = run context position scan text := by
  induction text generalizing position scan with
  | nil => rfl
  | cons c rest ih =>
    rw [run, run]
    show (scan.step context position c >>= _) = _
    exact bind_congr fun next => ih (position + c.utf8Size) next

/-- With leniency no brackets are reported at the end of a text. -/
theorem not_unterminated_leniently (context : Context) (scan : Scan) :
    ¬ (!scan.unclosed.isEmpty && !context.leniently.options.lenient) = true := by
  show ¬ (!scan.unclosed.isEmpty && !true) = true
  rw [Bool.not_true, Bool.and_false]
  exact Bool.false_ne_true

/-- Leniency plays no part at the end either, unless brackets are open there. -/
theorem finish_leniently_cases (context : Context) (position : Nat) (scan : Scan) :
    scan.finish context.leniently position = scan.finish context position
      ∨ scan.finish context position
        = .error (.malformed position (.unterminated scan.unclosed.length)) := by
  by_cases inside : (!scan.unclosed.isEmpty && !context.options.lenient) = true
  · by_cases separated : scan.phase = .separated
    · -- a comma at the end is reported before brackets that are open
      left
      rw [finish, finish, if_pos separated, if_pos separated]
      rfl
    · right
      rw [finish, if_neg separated, if_pos inside]
      rfl
  · left
    rw [finish, finish, if_neg inside, if_neg (not_unterminated_leniently context scan)]
    rfl

/-- A text that is read in another way with leniency leaves brackets open without it. -/
theorem readBody_leniently_cases (context : Context) (start : Nat) (text : List Char) :
    readBody context.leniently start text = readBody context start text
      ∨ ∃ unclosed, readBody context start text
        = .error (.malformed (start + byteLength text) (.unterminated unclosed)) := by
  rw [readBody, readBody, run_leniently]
  cases run context start {} text with
  | error cause => exact .inl rfl
  | ok scan =>
    rcases finish_leniently_cases context (start + byteLength text) scan with
      same | unterminated
    · exact .inl same
    · exact .inr ⟨_, unterminated⟩

/-! ## Closing what is open -/

/-- What is left outside all brackets when they are closed one after the other. -/
def collapse (here : Address) (items : List Descriptor) : List Frame → List Descriptor
  | [] => items
  | frame :: outer => collapse here (frame.before ++ [⟨here, frame.raw, items, false⟩]) outer

/-- Closing brackets, as many as are open, are read when an argument can end, and leave what
`collapse` says. -/
theorem exists_runs_collapse (frames : List Frame) (ends : Ends context items phase items') :
    ∃ read ended, Runs context ⟨frames, items, phase⟩ (List.replicate frames.length '>')
        ⟨[], read, ended⟩
      ∧ Ends context read ended (collapse context.here items' frames) := by
  induction frames generalizing items phase items' with
  | nil => exact ⟨items, phase, .nil _, ends⟩
  | cons frame outer ih =>
    let descriptor : Descriptor := ⟨context.here, frame.raw, items', false⟩
    have ends : Ends context items phase descriptor.arguments := ends
    have step : Steps context ⟨frame :: outer, items, phase⟩ '>'
        ⟨outer, frame.before ++ [descriptor], .closed⟩ := .closes ends
    -- behind a closing bracket an argument can end again
    have again : Ends context (frame.before ++ [descriptor]) .closed _ :=
      .closed (List.append_ne_nil_of_right_ne_nil _ (List.cons_ne_nil _ _))
    obtain ⟨read, ended, runs, ends⟩ := ih again
    exact ⟨read, ended, .cons step runs, ends⟩

/-- A draft of what has been read is built as the descriptor with these arguments, erased. -/
theorem build_of_scanned (raw : RawType) (items : List Descriptor) (place here : Address) :
    (⟨some raw, items.map scanned, false⟩ : Draft).build here
      = .ok (Descriptor.erased here ⟨place, raw, items, false⟩) := by
  rw [Draft.build, buildAll_scanned (fun descriptor _ here => build_scanned here descriptor),
    erased_eq]
  rfl

/-- A draft with one more draft in it is built as the descriptor with one more argument. -/
theorem build_add_of_scanned {draft : Draft} {descriptor : Descriptor}
    (built : ∀ here, draft.build here = .ok (descriptor.erased here)) (raw : RawType)
    (before : List Descriptor) (place here : Address) :
    ((⟨some raw, before.map scanned, false⟩ : Draft).add (.draft draft)).build here
      = .ok (Descriptor.erased here ⟨place, raw, before ++ [descriptor], false⟩) := by
  have last : (Argument.draft draft).build (here.child (before.map scanned).length)
      = .ok (descriptor.erased (here.child (before.map scanned).length)) := built _
  rw [Draft.build_add (build_of_scanned raw before place here) last, erased, erased,
    erasedAll_append_singleton, List.length_map, Nat.zero_add]

/-- Drafts that are added to each other are built as what `collapse` puts behind the rest. -/
theorem exists_build_nest {draft : Draft} {descriptor : Descriptor}
    (built : ∀ here, draft.build here = .ok (descriptor.erased here)) (place : Address)
    (before : List Descriptor) (outer : List Frame) :
    ∃ whole, collapse place (before ++ [descriptor]) outer = outermost before outer ++ [whole]
      ∧ ∀ here, (nest draft (drafts before outer)).build here = .ok (whole.erased here) := by
  induction outer generalizing draft descriptor before with
  | nil => exact ⟨descriptor, rfl, built⟩
  | cons frame outer ih => exact ih (build_add_of_scanned built frame.raw before place) frame.before

/-- Closing all brackets at the end of a text leaves what `collapse` says. -/
theorem closeAll_scan (frames : List Frame) (items : List Descriptor) (phase : Phase) :
    (Progress.scan context ⟨frames, items, phase⟩).closeAll context
      = .ok (Progress.scan context ⟨[], collapse context.here items frames, phase⟩) := by
  cases frames with
  | nil => rfl
  | cons frame outer =>
    have innermost := build_of_scanned frame.raw items context.here
    obtain ⟨whole, left, build⟩ := exists_build_nest innermost context.here frame.before outer
    have collapsed : collapse context.here items (frame :: outer)
        = outermost items (frame :: outer) ++ [whole] := left
    show ((nest _ (drafts frame.before outer)).build _ >>= _) = _
    rw [build, next_scan, collapsed]
    simp only [Progress.scan, drafts, outermost, finished_append_singleton]
    rfl

/-- With leniency a text ends as if all brackets had been closed. -/
theorem finish_leniently (position : Nat) :
    (Progress.scan context ⟨frames, items, phase⟩).finish context.leniently position
      = (Progress.scan context ⟨[], collapse context.here items frames, phase⟩).finish
        context.leniently position := by
  have closed : (Progress.scan context ⟨frames, items, phase⟩).closeAll context.leniently
      = .ok (Progress.scan context ⟨[], collapse context.here items frames, phase⟩) :=
    closeAll_scan frames items phase
  rw [finish, finish, if_neg (not_unterminated_leniently context _),
    if_neg (not_unterminated_leniently context _), closed]
  rfl

/-! ## Completing a text -/

/-- How a text that leaves so many brackets open is completed with closing brackets. -/
inductive Completes : Nat → List Char → List Char → Prop
  /-- Behind a closing bracket the others are closed. -/
  | closed {unclosed : Nat} {before : List Char} :
      Completes unclosed (before ++ ['>']) (before ++ ['>'] ++ List.replicate unclosed '>')
  /-- An opening bracket is dropped, and the others are closed. -/
  | opened {unclosed : Nat} {before : List Char} :
      Completes (unclosed + 1) (before ++ ['<']) (before ++ List.replicate unclosed '>')
  /-- A comma is dropped, with its blank if it has one, and all brackets are closed. -/
  | separated {unclosed : Nat} {before blanks : List Char}
      (few : blanks = [] ∨ ∃ b, isBlank b = true ∧ blanks = [b]) :
      Completes unclosed (before ++ ',' :: blanks) (before ++ List.replicate unclosed '>')

/-- A text that leaves brackets open, and does not end in a name, is read up to an end when it is
completed, and what has been read then is what closing the brackets leaves. -/
theorem Runs.exists_completes (runs : Runs context {} text ⟨frames, items, phase⟩)
    (inside : frames ≠ []) (noName : ∀ reversed, phase ≠ .name reversed) :
    ∃ completed read ended, Completes frames.length text completed
      ∧ Runs context {} completed ⟨[], read, ended⟩
      ∧ Ends context read ended (collapse context.here items frames) := by
  rcases List.eq_nil_or_concat text with rfl | ⟨part, c, rfl⟩
  · cases runs
    exact absurd rfl inside
  rw [List.concat_eq_append] at runs ⊢
  obtain ⟨before, behind, first, step, rest⟩ := runs.exists_steps
  cases rest
  cases step with
  | @opens outer earlier reversed raw inLimit resolved =>
    -- without its bracket the name is an argument of its own
    have ends : Ends context earlier (.name reversed)
        (earlier ++ [⟨context.here, raw, [], false⟩]) := .name resolved rfl
    obtain ⟨read, ended, closing, closed⟩ := exists_runs_collapse outer ends
    exact ⟨_, read, ended, .opened, first.append closing, closed⟩
  | comma ends =>
    obtain ⟨read, ended, closing, closed⟩ := exists_runs_collapse frames ends
    exact ⟨_, read, ended, .separated (.inl rfl), first.append closing, closed⟩
  | @closes earlier frames read ended descriptor ends =>
    have again : Ends context (earlier ++ [descriptor]) .closed _ :=
      .closed (runs.isValid isValid_start rfl)
    obtain ⟨read, ended, closing, closed⟩ := exists_runs_collapse frames again
    exact ⟨_, read, ended, .closed, runs.append closing, closed⟩
  | blank isBlank =>
    obtain ⟨front, earlier, ended, rfl, runs, ends⟩ := first.exists_of_separated
    obtain ⟨read, ended, closing, closed⟩ := exists_runs_collapse frames ends
    refine ⟨_, read, ended, ?_, runs.append closing, closed⟩
    rw [List.append_assoc]
    exact .separated (.inr ⟨c, isBlank, rfl⟩)
  | first isName start => exact absurd rfl (noName _)
  | more isName => exact absurd rfl (noName _)

/-! ## Names behind open brackets -/

/-- With leniency a text is read as if all brackets had been closed at its end. -/
theorem Runs.readBody_leniently (runs : Runs context {} text ⟨frames, items, phase⟩)
    (start : Nat) :
    readBody context.leniently start text
      = (Progress.scan context ⟨[], collapse context.here items frames, phase⟩).finish
        context.leniently (start + byteLength text) := by
  rw [readBody, run_leniently]
  show (run context start (Progress.scan context {}) text >>= _) = _
  rw [(run_eq_ok_iff isValid_start).2 ⟨_, runs, rfl⟩]
  exact finish_leniently _

/-- What leniency makes of descriptors and a name that is pending behind them, which may be
empty. -/
def withPending (context : Context) (descriptors : List Descriptor) (name : List Char) :
    Except DescriptorError (List Descriptor) :=
  if name.isEmpty then .ok descriptors
  else do
    let raw ← (context.scope.find (String.ofList name)).mapError DescriptorError.ofRegistry
    return descriptors ++ [.leaf (context.here.child descriptors.length) raw]

/-- Where no name is pending the descriptors are all there is. -/
@[simp] theorem withPending_nil (context : Context) (descriptors : List Descriptor) :
    withPending context descriptors [] = .ok descriptors := rfl

/-- A pending name under which a raw type is found is one more descriptor. -/
theorem withPending_of_find {name : List Char} {raw : RawType} (nonempty : name ≠ [])
    (found : context.scope.find (String.ofList name) = .ok raw) (descriptors : List Descriptor) :
    withPending context descriptors name
      = .ok (descriptors ++ [.leaf (context.here.child descriptors.length) raw]) := by
  rw [withPending, List.isEmpty_eq_false_iff.2 nonempty, if_neg Bool.false_ne_true, found]
  rfl

/-- A pending name under which nothing is found is an error. -/
theorem withPending_of_error {name : List Char} {cause : RegistryError} (nonempty : name ≠ [])
    (failed : context.scope.find (String.ofList name) = .error cause)
    (descriptors : List Descriptor) :
    withPending context descriptors name = .error (.ofRegistry cause) := by
  rw [withPending, List.isEmpty_eq_false_iff.2 nonempty, if_neg Bool.false_ne_true, failed]
  rfl

/-- A pending name that a registry does not know is a missing type. -/
theorem withPending_of_unknown {registry : Registry} {options : ReadOptions} {here : Address}
    {name : List Char} (nonempty : name ≠ [])
    (unknown : ∀ raw, (registry.lookup (String.ofList name)).1 ≠ .ok raw)
    (descriptors : List Descriptor) :
    withPending ⟨registry.scope, options, here⟩ descriptors name
      = .error (.typeNotFound (String.ofList name)) := by
  cases found : registry.find (String.ofList name) with
  | ok raw => exact absurd found (unknown raw)
  | error cause =>
    have failed : registry.scope.find (String.ofList name) = .error cause := found
    rw [withPending_of_error nonempty failed, Registry.find_eq_error found]
    rfl

/-- Outside all brackets a text ends with the name that is pending. -/
theorem finish_withPending (position : Nat) (runs : Runs context {} text ⟨frames, items, phase⟩)
    (other : phase ≠ .separated) (read : List Descriptor) :
    (Progress.scan context ⟨[], read, phase⟩).finish context.leniently position
      = withPending context (erasedAll context.here 0 read) phase.pending := by
  show (Progress.scan context.leniently ⟨[], read, phase⟩).finish context.leniently position = _
  cases phase with
  | separated => exact absurd rfl other
  | fresh => exact finish_outside position
  | closed => exact finish_outside position
  | name reversed =>
    -- a name that is being read is not empty
    obtain ⟨before, start, -, isName, -⟩ := runs.exists_of_name
    have nonempty := List.isEmpty_eq_false_iff.2 isName.1
    rw [withPending, Phase.pending, nonempty, if_neg Bool.false_ne_true]
    change _ = resolve context.leniently reversed >>= _
    cases resolved : resolve context.leniently reversed with
    | error cause =>
      rw [finish_outside]
      dsimp only
      rw [addName, resolved]
      rfl
    | ok raw =>
      have ends : Ends context.leniently read (.name reversed)
          (read ++ [.leaf context.here raw]) := .name resolved rfl
      have finishes : Progress.Finishes context.leniently ⟨[], read, .name reversed⟩ _ :=
        ⟨rfl, .inr ends⟩
      rw [finish_scan position finishes, erasedAll_append_singleton]
      show Except.ok _ = Except.ok _
      rw [length_erasedAll, Nat.zero_add]
      rfl

end Scan

namespace Descriptor

open Scan

/-- A text that leaves brackets open, and does not end in a comma, is completed in front of the name
at its end. Strict reading of what is completed succeeds, and lenient reading of the text adds the
name to it. -/
theorem exists_completed_of_unterminated {scope : Scope} {limit : Nat} {here : Address}
    {frames : List Frame} {items : List Descriptor} {phase : Phase}
    {text before name : List Char}
    (runs : Runs ⟨scope, ⟨limit, false⟩, here⟩ {} text ⟨frames, items, phase⟩)
    (inside : frames ≠ []) (other : phase ≠ .separated) (pending : IsPending text before name) :
    ∃ completed descriptors, Completes frames.length before completed
      ∧ readAll scope ⟨limit, false⟩ here (String.ofList completed) = .ok descriptors
      ∧ ∀ start, readBody ⟨scope, ⟨limit, true⟩, here⟩ start text
        = withPending ⟨scope, ⟨limit, false⟩, here⟩ descriptors name := by
  -- the name at the end is the one that is being read
  obtain ⟨front, first, same, firstRuns, noName⟩ := runs.exists_isPending
  obtain ⟨rfl, rfl⟩ := pending.eq same
  obtain ⟨completed, read, ended, completes, completedRuns, ends⟩ :=
    firstRuns.exists_completes inside noName
  refine ⟨completed, erasedAll here 0 (collapse here items frames), completes, ?_, ?_⟩
  · have trimmed : IsTrimmed (String.ofList completed).toList := by
      rw [String.toList_ofList]
      exact isTrimmed_of_runs completedRuns ends
    rw [readAll_of_isTrimmed trimmed, String.toList_ofList]
    exact readBody_scan 0 completedRuns ⟨rfl, .inr ends⟩
  · intro start
    exact (runs.readBody_leniently start).trans (finish_withPending _ runs other _)

/-- **Leniency is a conservative extension.** Wherever strict reading does not report brackets that
are open at the end, lenient reading gives the same, be it descriptors or an error. Where it does,
take the name at the end of the trimmed text, which may be empty, and the text in front of it. That
text is completed with closing brackets: all of them behind a closing bracket, all but one in the
place of an opening bracket, all in the place of a comma and its blank. Strict reading of what is
completed succeeds, and lenient reading gives the same descriptors, and behind them the name as a
descriptor of its own if there is one, or the error of its look-up. For a registry this error is
that no type is found under the name. -/
theorem readAll_leniently (scope : Scope) (limit : Nat) (here : Address) (text : String) :
    ((∀ position unclosed, readAll scope ⟨limit, false⟩ here text
        ≠ .error (.malformed position (.unterminated unclosed))) →
      readAll scope ⟨limit, true⟩ here text = readAll scope ⟨limit, false⟩ here text)
    ∧ ∀ position unclosed, readAll scope ⟨limit, false⟩ here text
        = .error (.malformed position (.unterminated unclosed)) →
      1 ≤ unclosed ∧ ∀ before name, IsPending (trim text.toList) before name →
        ∃ completed descriptors, Completes unclosed before completed
          ∧ readAll scope ⟨limit, false⟩ here (String.ofList completed) = .ok descriptors
          ∧ (name = [] → readAll scope ⟨limit, true⟩ here text = .ok descriptors)
          ∧ (∀ raw, name ≠ [] → scope.find (String.ofList name) = .ok raw →
            readAll scope ⟨limit, true⟩ here text
              = .ok (descriptors ++ [.leaf (here.child descriptors.length) raw]))
          ∧ (∀ cause, name ≠ [] → scope.find (String.ofList name) = .error cause →
            readAll scope ⟨limit, true⟩ here text = .error (.ofRegistry cause))
          ∧ ∀ registry : Registry, scope = registry.scope → name ≠ [] →
            (∀ raw, (registry.lookup (String.ofList name)).1 ≠ .ok raw) →
              readAll scope ⟨limit, true⟩ here text
                = .error (.typeNotFound (String.ofList name)) := by
  let context : Context := ⟨scope, ⟨limit, false⟩, here⟩
  let start := byteLength text.toList - byteLength (trimStart text.toList)
  have strictly : readAll scope ⟨limit, false⟩ here text
      = readBody context start (trim text.toList) := rfl
  have leniently : readAll scope ⟨limit, true⟩ here text
      = readBody ⟨scope, ⟨limit, true⟩, here⟩ start (trim text.toList) := rfl
  rw [strictly]
  constructor
  · intro terminated
    rcases readBody_leniently_cases context start (trim text.toList) with
      same | ⟨unclosed, failed⟩
    · exact same
    · exact absurd failed (terminated _ unclosed)
  · intro position unclosed failed
    have strict : context.options.lenient = false := rfl
    have outcome := readBody_outcome strict start (trim text.toList)
    rw [failed] at outcome
    cases outcome with
    | rejected split runs rejects => cases rejects
    | unresolved split runs pending ends failed =>
      obtain ⟨error, -, same⟩ := exists_of_resolve_eq_error failed
      exact absurd same (malformed_ne_ofRegistry _ _ error)
    | @unterminated after runs other inside =>
      obtain ⟨frames, items, phase⟩ := after
      refine ⟨List.length_pos_iff.2 inside, ?_⟩
      intro before name pending
      obtain ⟨completed, descriptors, completes, complete, recovered⟩ :=
        exists_completed_of_unterminated runs inside other pending
      rw [leniently, recovered]
      refine ⟨completed, descriptors, completes, complete, ?_, ?_, ?_, ?_⟩
      · intro none
        rw [none, withPending_nil]
      · intro raw some found
        exact withPending_of_find some found _
      · intro cause some failed
        exact withPending_of_error some failed _
      · rintro registry rfl some unknown
        exact withPending_of_unknown some unknown _

/-- Below a root called `A` a text that ends inside brackets, behind a comma with a blank and a
name, is read with leniency as the text without them in closed brackets and the name behind it. -/
theorem readAll_leniently_pending :
    let scope := (Registry.ofTop "A").scope
    let root := RawType.ofDeclaration (.top "A")
    readAll scope ⟨64, false⟩ ⟨0, []⟩ " A<A, A" = .error (.malformed 7 (.unterminated 1))
      ∧ IsPending (trim " A<A, A".toList) "A<A, ".toList "A".toList
      ∧ scope.find (String.ofList "A".toList) = .ok root
      ∧ ∃ completed descriptors, Completes 1 "A<A, ".toList completed
        ∧ readAll scope ⟨64, false⟩ ⟨0, []⟩ (String.ofList completed) = .ok descriptors
        ∧ readAll scope ⟨64, true⟩ ⟨0, []⟩ " A<A, A"
          = .ok (descriptors ++ [.leaf ⟨0, [descriptors.length]⟩ root]) := by
  intro scope root
  have unterminated : readAll scope ⟨64, false⟩ ⟨0, []⟩ " A<A, A"
      = .error (.malformed 7 (.unterminated 1)) := by rfl
  have pending : IsPending (trim " A<A, A".toList) "A<A, ".toList "A".toList := by
    refine ⟨by decide, ?_, ?_⟩
    · exact List.forall_mem_singleton.2 ⟨by decide, by decide, by decide, by decide⟩
    · rintro c last ⟨-, -, -, noBlank⟩
      obtain rfl : ' ' = c := Option.some.inj last
      exact absurd noBlank (by decide)
  have found : scope.find (String.ofList "A".toList) = .ok root := by rfl
  obtain ⟨-, recovers⟩ := readAll_leniently scope 64 ⟨0, []⟩ " A<A, A"
  obtain ⟨-, recovers⟩ := recovers 7 1 unterminated
  obtain ⟨completed, descriptors, completes, strictly, -, named, -⟩ :=
    recovers "A<A, ".toList "A".toList pending
  have nonempty : "A".toList ≠ [] := by decide
  exact ⟨unterminated, pending, found, completed, descriptors, completes, strictly,
    named root nonempty found⟩

example : readAll (Registry.ofTop "A").scope ⟨64, true⟩ ⟨0, []⟩ "A<A<"
    = .ok [⟨⟨0, [0]⟩, .ofDeclaration (.top "A"),
      [.leaf ⟨0, [0, 0]⟩ (.ofDeclaration (.top "A"))], false⟩] := by rfl

end Descriptor

end GenericTypes
