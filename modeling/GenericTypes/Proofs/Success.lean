import Mathlib.Data.List.Basic

/-! # Computations that succeed

What a computation has done that ends in a result and not in an error. -/

namespace GenericTypes

/-- A step of a computation that succeeds has succeeded itself. -/
theorem ok_of_bind_eq_ok {ε α β : Type} {first : Except ε α} {next : α → Except ε β} {result : β}
    (succeeds : first >>= next = .ok result) :
    ∃ value, first = .ok value ∧ next value = .ok result := by
  cases first with
  | error cause => cases succeeds
  | ok value => exact ⟨value, rfl, succeeds⟩

/-- A result that is changed afterwards does not fail where the computation of it succeeds. -/
theorem bind_pure_eq_error_iff {ε α β : Type} {first : Except ε α} {f : α → β} {cause : ε} :
    (first >>= fun value => pure (f value)) = .error cause ↔ first = .error cause := by
  cases first with
  | error other => exact ⟨fun same => by cases same; rfl, fun same => by cases same; rfl⟩
  | ok value => exact iff_of_false (fun fails => by cases fails) (fun fails => by cases fails)

/-- Computations that agree in what matters of their results fail with the same error or succeed
with values that agree. -/
theorem map_eq_map_cases {ε α β γ : Type} {first : Except ε α} {second : Except ε β} {f : α → γ}
    {g : β → γ} (same : first.map f = second.map g) :
    (∃ cause, first = .error cause ∧ second = .error cause)
      ∨ ∃ value result, first = .ok value ∧ second = .ok result ∧ f value = g result := by
  cases first with
  | error cause =>
    cases second with
    | error fault =>
      cases same
      exact .inl ⟨cause, rfl, rfl⟩
    | ok result => cases same
  | ok value =>
    cases second with
    | error fault => cases same
    | ok result => exact .inr ⟨value, result, rfl, rfl, Except.ok.inj same⟩

/-- Optional values that agree in what matters are both missing, or they are there and agree. -/
theorem optionMap_eq_cases {α β : Type} {first second : Option α} {f : α → β}
    (same : first.map f = second.map f) :
    (first = none ∧ second = none)
      ∨ ∃ value result, first = some value ∧ second = some result ∧ f value = f result := by
  cases first with
  | none => exact .inl ⟨rfl, Option.map_eq_none_iff.1 same.symm⟩
  | some value =>
    obtain ⟨result, there, equal⟩ := Option.map_eq_some_iff.1 same.symm
    exact .inr ⟨value, result, rfl, there, equal.symm⟩

/-- Two computations agree in what matters of their results if their first steps do, and if what
comes next does whenever it starts from values that agree. -/
theorem map_bind_congr {ε α β γ δ : Type} {first second : Except ε α}
    {next other : α → Except ε β} {f : α → γ} {g : β → δ} (same : first.map f = second.map f)
    (agree : ∀ value result, f value = f result → (next value).map g = (other result).map g) :
    (first >>= next).map g = (second >>= other).map g := by
  obtain ⟨cause, rfl, rfl⟩ | ⟨value, result, rfl, rfl, equal⟩ := map_eq_map_cases same
  · rfl
  · exact agree value result equal

/-- A list is mapped successfully if each of its elements is, to as many elements in the same
order. -/
theorem mapM_eq_ok_iff {ε α β : Type} {f : α → Except ε β} {inputs : List α} {results : List β} :
    inputs.mapM f = .ok results ↔
      results.length = inputs.length
        ∧ ∀ (index : Nat) (input : α) (result : β), inputs[index]? = some input →
          results[index]? = some result → f input = .ok result := by
  constructor
  · intro succeeds
    induction inputs generalizing results with
    | nil =>
      rw [List.mapM_nil] at succeeds
      cases succeeds
      exact ⟨rfl, fun index input result found => by cases found⟩
    | cons first rest ih =>
      rw [List.mapM_cons] at succeeds
      obtain ⟨head, headEq, succeeds⟩ := ok_of_bind_eq_ok succeeds
      obtain ⟨tail, tailEq, succeeds⟩ := ok_of_bind_eq_ok succeeds
      cases succeeds
      obtain ⟨lengths, each⟩ := ih tailEq
      refine ⟨congrArg Nat.succ lengths, fun index input result found mapped => ?_⟩
      cases index with
      | zero =>
        cases found
        cases mapped
        exact headEq
      | succ index => exact each index input result found mapped
  · rintro ⟨lengths, each⟩
    induction inputs generalizing results with
    | nil =>
      rw [List.length_eq_zero_iff.1 lengths, List.mapM_nil]
      rfl
    | cons first rest ih =>
      cases results with
      | nil => cases lengths
      | cons head tail =>
        have headEq := each 0 first head rfl rfl
        have tailEq := ih (Nat.succ.inj lengths) fun index => each (index + 1)
        rw [List.mapM_cons, headEq, tailEq]
        rfl

/-- A list that is mapped successfully keeps its length. -/
theorem length_of_mapM {ε α β : Type} {f : α → Except ε β} {inputs : List α} {results : List β}
    (succeeds : inputs.mapM f = .ok results) : results.length = inputs.length :=
  (mapM_eq_ok_iff.1 succeeds).1

/-- Every element of a list that is mapped successfully has been mapped to an element of the
result. -/
theorem exists_of_mem_mapM {ε α β : Type} {f : α → Except ε β} {inputs : List α} {results : List β}
    (succeeds : inputs.mapM f = .ok results) {result : β} (mem : result ∈ results) :
    ∃ input ∈ inputs, f input = .ok result := by
  obtain ⟨lengths, each⟩ := mapM_eq_ok_iff.1 succeeds
  obtain ⟨index, inside, rfl⟩ := List.mem_iff_getElem.1 mem
  have there : index < inputs.length := lengths ▸ inside
  exact ⟨inputs[index], List.getElem_mem there, each index _ _ (List.getElem?_eq_getElem there)
    (List.getElem?_eq_getElem inside)⟩

/-- Mapping a list fails if it fails for an element; the error is that of the first such element. -/
theorem mapM_eq_error_iff {ε α β : Type} {f : α → Except ε β} {inputs : List α} {cause : ε} :
    inputs.mapM f = .error cause ↔
      ∃ (index : Nat) (input : α), inputs[index]? = some input ∧ f input = .error cause
        ∧ ∀ earlier < index, ∀ other : α, inputs[earlier]? = some other →
          ∃ result, f other = .ok result := by
  induction inputs with
  | nil =>
    rw [List.mapM_nil]
    refine iff_of_false (fun fails => by cases fails) ?_
    rintro ⟨index, input, found, -⟩
    cases found
  | cons first rest ih =>
    rw [List.mapM_cons]
    cases headEq : f first with
    | error head =>
      constructor
      · rintro ⟨⟩
        exact ⟨0, first, rfl, headEq, fun earlier less => absurd less (Nat.not_lt_zero earlier)⟩
      · rintro ⟨index, input, found, failed, before⟩
        cases index with
        | zero =>
          cases found
          rw [headEq] at failed
          cases failed
          rfl
        | succ index =>
          -- no element in front of the first error has failed
          obtain ⟨result, succeeded⟩ := before 0 (Nat.succ_pos index) first rfl
          rw [headEq] at succeeded
          cases succeeded
    | ok head =>
      have rest_iff : (Except.ok head >>= fun head => do return head :: (← rest.mapM f))
          = Except.error cause ↔ rest.mapM f = .error cause := bind_pure_eq_error_iff
      rw [rest_iff, ih]
      constructor
      · rintro ⟨index, input, found, failed, before⟩
        refine ⟨index + 1, input, found, failed, fun earlier less other inside => ?_⟩
        cases earlier with
        | zero =>
          cases inside
          exact ⟨head, headEq⟩
        | succ earlier => exact before earlier (Nat.lt_of_succ_lt_succ less) other inside
      · rintro ⟨index, input, found, failed, before⟩
        cases index with
        | zero =>
          cases found
          rw [headEq] at failed
          cases failed
        | succ index =>
          exact ⟨index, input, found, failed, fun earlier less =>
            before (earlier + 1) (Nat.succ_lt_succ less)⟩

/-- What stands at an index of a list whose elements are numbered. -/
theorem getElem?_zipIdx_eq_some_iff {α : Type} {inputs : List α} {start index : Nat}
    {input : α × Nat} :
    (inputs.zipIdx start)[index]? = some input ↔
      inputs[index]? = some input.1 ∧ input.2 = start + index := by
  obtain ⟨value, number⟩ := input
  simp only [List.getElem?_zipIdx, Option.map_eq_some_iff, Prod.mk.injEq]
  constructor
  · rintro ⟨_, found, rfl, rfl⟩
    exact ⟨found, rfl⟩
  · rintro ⟨found, rfl⟩
    exact ⟨value, found, rfl, rfl⟩

/-- A list whose elements are numbered is mapped successfully if each element is, with its
number. -/
theorem mapM_zipIdx_eq_ok_iff {ε α β : Type} {f : α × Nat → Except ε β} {inputs : List α}
    {start : Nat} {results : List β} :
    (inputs.zipIdx start).mapM f = .ok results ↔
      results.length = inputs.length
        ∧ ∀ (index : Nat) (input : α) (result : β), inputs[index]? = some input →
          results[index]? = some result → f (input, start + index) = .ok result := by
  rw [mapM_eq_ok_iff, List.length_zipIdx]
  refine and_congr_right fun _ => ?_
  constructor
  · intro each index input result found mapped
    exact each index _ result (getElem?_zipIdx_eq_some_iff.2 ⟨found, rfl⟩) mapped
  · rintro each index ⟨input, number⟩ result found mapped
    obtain ⟨found, rfl⟩ := getElem?_zipIdx_eq_some_iff.1 found
    exact each index input result found mapped

/-- Mapping a list whose elements are numbered fails if it fails for an element with its number; the
error is that of the first such element. -/
theorem mapM_zipIdx_eq_error_iff {ε α β : Type} {f : α × Nat → Except ε β} {inputs : List α}
    {start : Nat} {cause : ε} :
    (inputs.zipIdx start).mapM f = .error cause ↔
      ∃ (index : Nat) (input : α), inputs[index]? = some input
        ∧ f (input, start + index) = .error cause
        ∧ ∀ earlier < index, ∀ other : α, inputs[earlier]? = some other →
          ∃ result, f (other, start + earlier) = .ok result := by
  rw [mapM_eq_error_iff]
  refine exists_congr fun index => ?_
  constructor
  · rintro ⟨⟨input, number⟩, found, failed, before⟩
    obtain ⟨found, rfl⟩ := getElem?_zipIdx_eq_some_iff.1 found
    exact ⟨input, found, failed, fun earlier less other inside =>
      before earlier less _ (getElem?_zipIdx_eq_some_iff.2 ⟨inside, rfl⟩)⟩
  · rintro ⟨input, found, failed, before⟩
    refine ⟨_, getElem?_zipIdx_eq_some_iff.2 ⟨found, rfl⟩, failed, ?_⟩
    rintro earlier less ⟨other, number⟩ inside
    obtain ⟨inside, rfl⟩ := getElem?_zipIdx_eq_some_iff.1 inside
    exact before earlier less other inside

/-! ## Computations that keep their success -/

/-- Whether a computation gives a value wherever another one does, and the same one. -/
def KeepsSuccess {ε α : Type} (before after : Except ε α) : Prop :=
  ∀ value, before = .ok value → after = .ok value

namespace KeepsSuccess

variable {ε α β : Type}

/-- A computation keeps its own success. -/
theorem refl (computation : Except ε α) : KeepsSuccess computation computation :=
  fun _ succeeds => succeeds

/-- An error has no success to keep. -/
theorem of_error (cause : ε) (after : Except ε α) : KeepsSuccess (.error cause) after := by
  intro value succeeds
  cases succeeds

/-- Success is kept if the first step keeps it and what comes next keeps it from any value. -/
theorem bind {first second : Except ε α} {next other : α → Except ε β}
    (kept : KeepsSuccess first second) (later : ∀ value, KeepsSuccess (next value) (other value)) :
    KeepsSuccess (first >>= next) (second >>= other) := by
  intro result succeeds
  obtain ⟨value, ok, succeeds⟩ := ok_of_bind_eq_ok succeeds
  rw [kept value ok]
  exact later value result succeeds

/-- Success with a list is kept if it is kept for each member. -/
theorem mapM {f g : α → Except ε β} {inputs : List α}
    (each : ∀ input ∈ inputs, KeepsSuccess (f input) (g input)) :
    KeepsSuccess (inputs.mapM f) (inputs.mapM g) := by
  induction inputs with
  | nil => exact refl _
  | cons input inputs ih =>
    rw [List.forall_mem_cons] at each
    rw [List.mapM_cons, List.mapM_cons]
    exact each.1.bind fun first => (ih each.2).bind fun others => refl _

end KeepsSuccess

end GenericTypes
