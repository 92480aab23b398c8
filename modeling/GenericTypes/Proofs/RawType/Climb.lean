import Mathlib.Data.Finset.Card
import GenericTypes.Proofs.RawType.Level
import GenericTypes.Proofs.Registry.Supertypes

/-! # Climbing to the types above

The types above a raw type can be counted with a list of raw types that are waiting. In a turn any
of them is taken: it is left out if its name has been met, and otherwise its name is met and the
types directly above it wait as well. The invariant says that everything directly above what has
been met has been met itself or is waiting. A climb that has nothing left to do has therefore met
every name above the raw type, once however many ways lead there, and whatever was taken first. The
level is the number of these names. -/

namespace GenericTypes

namespace RawType

/-- Whether one or more steps up lead from a raw type to another one. -/
def Above (lower upper : RawType) : Prop :=
  Relation.TransGen (fun lower upper => upper ∈ lower.parents) lower upper

/-- What is directly above a declaration is directly above the raw type. -/
theorem ofDeclaration_mem_parents {parent declaration : Declaration}
    (isParent : parent ∈ declaration.parents) :
    ofDeclaration parent ∈ (ofDeclaration declaration).parents := by
  obtain ⟨supertype, named, rfl⟩ := List.mem_map.1 isParent
  exact List.mem_map_of_mem named

/-- Above a declared type there are the declared types above its declaration. -/
theorem above_ofDeclaration_iff {declaration : Declaration} {upper : RawType} :
    (ofDeclaration declaration).Above upper ↔
      ∃ parent, declaration.Above parent ∧ upper = ofDeclaration parent := by
  constructor
  · intro above
    induction above with
    | single step =>
      obtain ⟨parent, isParent, rfl⟩ := Registry.mem_parents_cases step
      exact ⟨parent, .single isParent, rfl⟩
    | tail _ step ih =>
      obtain ⟨middle, above, rfl⟩ := ih
      obtain ⟨parent, isParent, rfl⟩ := Registry.mem_parents_cases step
      exact ⟨parent, .tail above isParent, rfl⟩
  · rintro ⟨parent, above, rfl⟩
    induction above with
    | single isParent => exact .single (ofDeclaration_mem_parents isParent)
    | tail _ isParent ih => exact .tail ih (ofDeclaration_mem_parents isParent)

/-- The declarations directly above a raw type are together a smaller tree than its own. -/
theorem totalSize_parents_lt (raw : RawType) :
    Declaration.totalSize (raw.parents.map element) < sizeOf raw.element := by
  have smaller := raw.element.totalSize_parents_lt
  rw [parents, supertypes]
  split
  · exact Nat.zero_lt_of_lt smaller
  · rwa [List.map_map]

end RawType

/-- The state of a climb. -/
structure Climb where
  /-- The names that have been met. -/
  seen : List String
  /-- The raw types that are waiting. -/
  waiting : List RawType

namespace Climb

/-- A turn of a climb. -/
inductive Turn : Climb → Climb → Prop
  /-- A raw type whose name has been met is left out. -/
  | skip {seen : List String} {before after : List RawType} {current : RawType}
    (known : current.name ∈ seen) :
    Turn ⟨seen, before ++ current :: after⟩ ⟨seen, before ++ after⟩
  /-- The name of another one is met, and what is directly above it waits. -/
  | visit {seen : List String} {before after : List RawType} {current : RawType}
    (new : current.name ∉ seen) :
    Turn ⟨seen, before ++ current :: after⟩
      ⟨current.name :: seen, before ++ after ++ current.parents⟩

/-- Any number of turns. -/
def Reaches : Climb → Climb → Prop :=
  Relation.ReflTransGen Turn

/-- A climb from a raw type begins with what is directly above it waiting. -/
def begin (start : RawType) : Climb :=
  ⟨[], start.parents⟩

variable {climb later : Climb} {start upper : RawType}

/-! ## Termination -/

/-- The size of the declarations that are waiting. -/
noncomputable def bound (climb : Climb) : Nat :=
  Declaration.totalSize (climb.waiting.map RawType.element)

/-- Every turn makes what is waiting smaller. -/
theorem Turn.bound_lt (turn : climb.Turn later) : later.bound < climb.bound := by
  cases turn with
  | @skip seen before after current known =>
    have smaller := current.totalSize_parents_lt
    simp only [bound, List.map_append, List.map_cons, Declaration.totalSize,
      Declaration.totalSize_append]
    omega
  | @visit seen before after current new =>
    have smaller := current.totalSize_parents_lt
    simp only [bound, List.map_append, List.map_cons, Declaration.totalSize,
      Declaration.totalSize_append]
    omega

/-- No climb takes turns for ever. -/
theorem wellFounded_turn : WellFounded fun later climb => Turn climb later :=
  Subrelation.wf Turn.bound_lt (InvImage.wf bound Nat.lt_wfRel.wf)

/-- While something is waiting there is a turn to take. -/
theorem exists_turn (waits : climb.waiting ≠ []) : ∃ later, climb.Turn later := by
  obtain ⟨seen, waiting⟩ := climb
  cases waiting with
  | nil => exact absurd rfl waits
  | cons current rest =>
    by_cases known : current.name ∈ seen
    · have turn : Turn ⟨seen, [] ++ current :: rest⟩ ⟨seen, [] ++ rest⟩ := .skip known
      exact ⟨_, turn⟩
    · have turn : Turn ⟨seen, [] ++ current :: rest⟩
          ⟨current.name :: seen, [] ++ rest ++ current.parents⟩ := .visit known
      exact ⟨_, turn⟩

/-! ## The invariant -/

/-- Whether a raw type has been met or is waiting. -/
def Covers (climb : Climb) (raw : RawType) : Prop :=
  raw.name ∈ climb.seen ∨ raw ∈ climb.waiting

/-- No turn forgets a raw type. -/
theorem Covers.turn {raw : RawType} (covers : climb.Covers raw) (turn : climb.Turn later) :
    later.Covers raw := by
  cases turn with
  | @skip seen before after current known =>
    simp only [Covers, List.mem_append, List.mem_cons] at covers ⊢
    rcases covers with met | waits | rfl | waits
    · exact .inl met
    · exact .inr (.inl waits)
    · exact .inl known
    · exact .inr (.inr waits)
  | @visit seen before after current new =>
    simp only [Covers, List.mem_append, List.mem_cons] at covers ⊢
    rcases covers with met | waits | rfl | waits
    · exact .inl (.inr met)
    · exact .inr (.inl (.inl waits))
    · exact .inl (.inl rfl)
    · exact .inr (.inl (.inr waits))

/-- What holds during a climb from a raw type. -/
structure Invariant (start : RawType) (climb : Climb) : Prop where
  /-- No name has been met twice. -/
  nodup : climb.seen.Nodup
  /-- A name that has been met is that of a type above the start. -/
  seen_above : ∀ name ∈ climb.seen, ∃ upper, start.Above upper ∧ upper.name = name
  /-- What is waiting is above the start. -/
  waiting_above : ∀ raw ∈ climb.waiting, start.Above raw
  /-- What is directly above the start has been met or is waiting. -/
  started : ∀ parent ∈ start.parents, climb.Covers parent
  /-- So is what is directly above the types that have been met. -/
  climbed : ∀ upper, start.Above upper → upper.name ∈ climb.seen →
    ∀ parent ∈ upper.parents, climb.Covers parent

/-- A climb begins with the invariant. -/
theorem invariant_begin (start : RawType) : Invariant start (begin start) where
  nodup := .nil
  seen_above := nofun
  waiting_above := fun _ isParent => .single isParent
  started := fun _ isParent => .inr isParent
  climbed := nofun

/-- A turn keeps the invariant if names tell apart what is above the start. -/
theorem Invariant.turn (invariant : Invariant start climb)
    (names : ∀ left right, start.Above left → start.Above right → left.name = right.name →
      left = right)
    (turn : climb.Turn later) : Invariant start later := by
  have started : ∀ parent ∈ start.parents, later.Covers parent :=
    fun parent isParent => (invariant.started parent isParent).turn turn
  have climbed : ∀ upper, start.Above upper → upper.name ∈ climb.seen →
      ∀ parent ∈ upper.parents, later.Covers parent :=
    fun upper above met parent isParent =>
      (invariant.climbed upper above met parent isParent).turn turn
  cases turn with
  | @skip seen before after current known =>
    have fewer := (List.sublist_cons_self current after).append_left before
    exact {
      nodup := invariant.nodup
      seen_above := invariant.seen_above
      waiting_above := fun raw waits => invariant.waiting_above raw (fewer.subset waits)
      started
      climbed }
  | @visit seen before after current new =>
    have fewer := (List.sublist_cons_self current after).append_left before
    have above := invariant.waiting_above current (List.mem_append_right _ List.mem_cons_self)
    exact {
      nodup := List.nodup_cons.2 ⟨new, invariant.nodup⟩
      seen_above := List.forall_mem_cons.2 ⟨⟨current, above, rfl⟩, invariant.seen_above⟩
      waiting_above := List.forall_mem_append.2
        ⟨fun raw waits => invariant.waiting_above raw (fewer.subset waits),
          fun parent isParent => above.tail isParent⟩
      started
      climbed := by
        intro upper upperAbove met
        rcases List.mem_cons.1 met with same | met
        · -- the type of this name is the one whose parents wait now
          rw [names upper current upperAbove above same]
          exact fun parent isParent => .inr (List.mem_append_right _ isParent)
        · exact climbed upper upperAbove met }

/-- A climb keeps the invariant if names tell apart what is above the start. -/
theorem Invariant.run (invariant : Invariant start climb)
    (names : ∀ left right, start.Above left → start.Above right → left.name = right.name →
      left = right)
    (reaches : climb.Reaches later) : Invariant start later := by
  induction reaches with
  | refl => exact invariant
  | tail _ turn ih => exact ih.turn names turn

/-- When nothing is waiting every type above the start has been met. -/
theorem Invariant.mem_seen_of_above (invariant : Invariant start climb)
    (done : climb.waiting = []) (above : start.Above upper) : upper.name ∈ climb.seen := by
  have met : ∀ {raw}, climb.Covers raw → raw.name ∈ climb.seen := by
    rintro raw (met | waits)
    · exact met
    · rw [done] at waits
      cases waits
  induction above with
  | single isParent => exact met (invariant.started _ isParent)
  | tail above isParent ih => exact met (invariant.climbed _ above ih _ isParent)

/-- When nothing is waiting the names of the types above the start have been met, and no others. -/
theorem Invariant.mem_seen_iff (invariant : Invariant start climb) (done : climb.waiting = [])
    {name : String} : name ∈ climb.seen ↔ ∃ upper, start.Above upper ∧ upper.name = name := by
  constructor
  · exact invariant.seen_above name
  · rintro ⟨upper, above, rfl⟩
    exact invariant.mem_seen_of_above done above

end Climb

namespace Registry

variable {registry : Registry} {declaration : Declaration}

/-- Names tell apart the types above a declared type. -/
theorem WellFormed.eq_of_above (wellFormed : registry.WellFormed)
    (mem : declaration ∈ registry.declared) (left right : RawType)
    (leftAbove : (RawType.ofDeclaration declaration).Above left)
    (rightAbove : (RawType.ofDeclaration declaration).Above right)
    (same : left.name = right.name) : left = right := by
  obtain ⟨first, firstMem, rfl, -⟩ := wellFormed.above_spec mem leftAbove
  obtain ⟨second, secondMem, rfl, -⟩ := wellFormed.above_spec mem rightAbove
  rw [wellFormed.eq_of_name_eq firstMem secondMem same]

/-- The search for the level meets the names of the types above a declared type. -/
theorem WellFormed.mem_ancestors_iff_above (wellFormed : registry.WellFormed)
    (mem : declaration ∈ registry.declared) {name : String} :
    name ∈ declaration.ancestors [] ↔
      ∃ upper, (RawType.ofDeclaration declaration).Above upper ∧ upper.name = name := by
  rw [wellFormed.mem_ancestors_iff mem]
  constructor
  · rintro ⟨parent, above, rfl⟩
    exact ⟨.ofDeclaration parent, RawType.above_ofDeclaration_iff.2 ⟨parent, above, rfl⟩, rfl⟩
  · rintro ⟨upper, above, rfl⟩
    obtain ⟨parent, parentAbove, rfl⟩ := RawType.above_ofDeclaration_iff.1 above
    exact ⟨parent, parentAbove, rfl⟩

/-- **The level counts the types above.** In a registry that calls lead to, take a declared type.
Its level is the number of different names of types that one or more steps up lead to, and its own
name is not among them; a type above it has a smaller level. Climbs end: no climb takes turns for
ever, each has a turn to take as long as something is waiting, and one that starts at the type and
has nothing waiting has met these names, each of them once. -/
theorem IsReachable.level_counts_above (reached : registry.IsReachable)
    (mem : declaration ∈ registry.declared) :
    let raw := RawType.ofDeclaration declaration
    (∃ names : Finset String, (∀ name, name ∈ names ↔ ∃ upper, raw.Above upper ∧ upper.name = name)
        ∧ raw.level = names.card ∧ raw.name ∉ names)
      ∧ (∀ upper, raw.Above upper → upper.level < raw.level)
      ∧ (WellFounded fun later climb => Climb.Turn climb later)
      ∧ ∀ climb, (Climb.begin raw).Reaches climb →
        (climb.waiting ≠ [] → ∃ later, climb.Turn later)
        ∧ (climb.waiting = [] → climb.seen.Nodup ∧ climb.seen.length = raw.level
          ∧ ∀ name, name ∈ climb.seen ↔ ∃ upper, raw.Above upper ∧ upper.name = name) := by
  intro raw
  have wellFormed := reached.wellFormed
  have nodup := wellFormed.nodup_ancestors mem
  refine ⟨⟨(declaration.ancestors []).toFinset, fun name => ?_, ?_, ?_⟩, ?_,
    Climb.wellFounded_turn, ?_⟩
  · rw [List.mem_toFinset, wellFormed.mem_ancestors_iff_above mem]
  · exact (List.toFinset_card_of_nodup nodup).symm
  · rw [List.mem_toFinset, wellFormed.mem_ancestors_iff_above mem]
    rintro ⟨upper, above, same⟩
    exact wellFormed.name_ne_of_above mem above same
  · intro upper above
    obtain ⟨parent, parentAbove, rfl⟩ := RawType.above_ofDeclaration_iff.1 above
    exact wellFormed.level_lt_of_above mem parentAbove
  · intro climb reaches
    refine ⟨Climb.exists_turn, fun done => ?_⟩
    have invariant := (Climb.invariant_begin raw).run (wellFormed.eq_of_above mem) reaches
    have seen_iff : ∀ name, name ∈ climb.seen ↔ ∃ upper, raw.Above upper ∧ upper.name = name :=
      fun _ => invariant.mem_seen_iff done
    -- two lists of the same names without repetitions are equally long
    have same : climb.seen.Perm (declaration.ancestors []) := by
      refine (List.perm_ext_iff_of_nodup invariant.nodup nodup).2 fun name => ?_
      rw [seen_iff, wellFormed.mem_ancestors_iff_above mem]
    exact ⟨invariant.nodup, same.length_eq, seen_iff⟩

/-- An interface above which there is nothing. -/
def shape : Declaration :=
  .interface "Shape" [] []

/-- An interface below it. -/
def flat : Declaration :=
  .interface "Flat" [] [⟨shape, []⟩]

/-- Another one. -/
def round : Declaration :=
  .interface "Round" [] [⟨shape, []⟩]

/-- A class to which two ways lead down from the first interface. -/
def disc : Declaration :=
  .ordinary "Disc" [] ⟨.top "Root", []⟩ [⟨flat, []⟩, ⟨round, []⟩]

/-- A registry with these types. -/
def shapes : Registry :=
  (((((ofTop "Root").define { name := "Shape", isInterface := true }).2.define
    { name := "Flat", isInterface := true, interfaces := ["Shape"] }).2.define
      { name := "Round", isInterface := true, interfaces := ["Shape"] }).2.define
        { name := "Disc", interfaces := ["Flat", "Round"] }).2

/-- A name alone as a signature. -/
theorem ofText_of_split?_nil {text : String} (split : Signature.split? text = some (text, [])) :
    Signature.ofText text = .applied text [] := by
  rw [Signature.ofText_of_split? split]
  rfl

/-- All definitions are accepted. -/
theorem declared_shapes : shapes.declared = [disc, round, flat, shape, .top "Root"] := by
  have shapeText : Signature.ofText "Shape" = .applied "Shape" [] :=
    ofText_of_split?_nil (by decide)
  have flatText : Signature.ofText "Flat" = .applied "Flat" [] := ofText_of_split?_nil (by decide)
  have roundText : Signature.ofText "Round" = .applied "Round" [] :=
    ofText_of_split?_nil (by decide)
  have first : (ofTop "Root").define { name := "Shape", isInterface := true }
      = (.ok shape, (ofTop "Root").insert shape) := by
    refine define_eq_of_declarationBy ?_ (by decide)
    rfl
  have second : ((ofTop "Root").insert shape).define
      { name := "Flat", isInterface := true, interfaces := ["Shape"] }
      = (.ok flat, ((ofTop "Root").insert shape).insert flat) := by
    simp only [define, declarationBy, interfaces, List.mapM_cons, List.mapM_nil, supertype,
      shapeText, Signature.resolve_applied]
    rfl
  have third : (((ofTop "Root").insert shape).insert flat).define
      { name := "Round", isInterface := true, interfaces := ["Shape"] }
      = (.ok round, (((ofTop "Root").insert shape).insert flat).insert round) := by
    simp only [define, declarationBy, interfaces, List.mapM_cons, List.mapM_nil, supertype,
      shapeText, Signature.resolve_applied]
    rfl
  have fourth : ((((ofTop "Root").insert shape).insert flat).insert round).declaration
      { name := "Disc", interfaces := ["Flat", "Round"] } = .ok disc := by
    simp only [declaration, declarationBy, interfaces, List.mapM_cons, List.mapM_nil, supertype,
      flatText, roundText, Signature.resolve_applied]
    rfl
  rw [shapes, first, second, third, declared_define, fourth]
  rfl

/-- Two ways lead up to the first interface, which is counted once. -/
theorem IsReachable.level_counts_above_disc :
    shapes.IsReachable ∧ disc ∈ shapes.declared ∧ (RawType.ofDeclaration disc).level = 4
      ∧ (RawType.ofDeclaration shape).level < 4 := by
  have reached : shapes.IsReachable :=
    ⟨ofTop "Root", .ofTop _, .define (.define (.define (.define .start _) _) _) _⟩
  have mem : disc ∈ shapes.declared := declared_shapes ▸ List.mem_cons_self
  obtain ⟨-, smaller, -, climbs⟩ := reached.level_counts_above mem
  -- the last one that waits is taken in each turn
  let start := RawType.ofDeclaration disc
  let flat := RawType.ofDeclaration flat
  let round := RawType.ofDeclaration round
  let shape := RawType.ofDeclaration shape
  let top := RawType.ofDeclaration (.top "Root")
  have reaches : (Climb.begin start).Reaches ⟨["Root", "Flat", "Shape", "Round"], []⟩ := by
    have first : Climb.Turn ⟨[], [top, flat] ++ round :: []⟩ ⟨["Round"], [top, flat, shape]⟩ :=
      .visit (by decide)
    have second : Climb.Turn ⟨["Round"], [top, flat] ++ shape :: []⟩
        ⟨["Shape", "Round"], [top, flat]⟩ := .visit (by decide)
    have third : Climb.Turn ⟨["Shape", "Round"], [top] ++ flat :: []⟩
        ⟨["Flat", "Shape", "Round"], [top, shape]⟩ := .visit (by decide)
    have fourth : Climb.Turn ⟨["Flat", "Shape", "Round"], [top] ++ shape :: []⟩
        ⟨["Flat", "Shape", "Round"], [top]⟩ := .skip (by decide)
    have fifth : Climb.Turn ⟨["Flat", "Shape", "Round"], [] ++ top :: []⟩
        ⟨["Root", "Flat", "Shape", "Round"], []⟩ := .visit (by decide)
    exact .head first (.head second (.head third (.head fourth (.single fifth))))
  obtain ⟨-, level, -⟩ := (climbs _ reaches).2 rfl
  have above : start.Above shape := .head (b := flat)
    (RawType.ofDeclaration_mem_parents (by exact List.mem_cons_of_mem _ List.mem_cons_self))
    (.single (RawType.ofDeclaration_mem_parents List.mem_cons_self))
  exact ⟨reached, mem, level.symm, (smaller shape above).trans_eq level.symm⟩

end Registry

end GenericTypes
