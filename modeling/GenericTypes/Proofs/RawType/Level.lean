import Mathlib.Data.List.Perm.Subperm
import Mathlib.Logic.Relation
import GenericTypes.Proofs.RawType.Subtyping
import GenericTypes.RawType.Level

/-! # The level of a type

The level is found by a search upwards that never visits a name twice. A name that has been met may
still be waiting for the names above it: this is so for the types on the way down to the one that is
visited, and for no others. Steps up never lead back there, so whatever the search leaves out has
been dealt with, and in the end it has met every name above the type once. The level is therefore
the number of these names, and it grows along every step down. -/

namespace GenericTypes

/-- Whether a declared type stands above another one. -/
def Declaration.Above (lower upper : Declaration) : Prop :=
  Relation.TransGen (fun lower upper => upper ∈ lower.parents) lower upper

namespace Registry

variable {registry : Registry} {declaration lower upper : Declaration}

/-- A type above another one is a smaller tree. -/
theorem sizeOf_lt_of_above (above : lower.Above upper) : sizeOf upper < sizeOf lower := by
  induction above with
  | single isParent => exact Declaration.sizeOf_lt_of_mem_parents isParent
  | tail _ isParent ih => exact (Declaration.sizeOf_lt_of_mem_parents isParent).trans ih

/-- What stands above a type is one of its parents or stands above one of them. -/
theorem above_iff : lower.Above upper ↔
    ∃ parent ∈ lower.parents, parent = upper ∨ parent.Above upper := by
  rw [Declaration.Above, Relation.TransGen.head'_iff]
  simp only [Relation.reflTransGen_iff_eq_or_transGen, Declaration.Above, eq_comm]

namespace WellFormed

/-- The types above a declared type are declared. -/
theorem above_mem (wellFormed : registry.WellFormed) (mem : lower ∈ registry.declared)
    (above : lower.Above upper) : upper ∈ registry.declared := by
  induction above with
  | single isParent => exact wellFormed.parent_mem lower mem _ isParent
  | tail _ isParent ih => exact wellFormed.parent_mem _ ih _ isParent

/-- No declared type has the name of a type above it. -/
theorem above_name_ne (wellFormed : registry.WellFormed) (mem : lower ∈ registry.declared)
    (above : lower.Above upper) : upper.name ≠ lower.name := by
  intro same
  have smaller := sizeOf_lt_of_above above
  rw [wellFormed.eq_of_name_eq (wellFormed.above_mem mem above) mem same] at smaller
  exact Nat.lt_irrefl _ smaller

end WellFormed

/-! ## The search -/

/-- Whether all names above a type have been met. -/
def IsDone (seen : List String) (declaration : Declaration) : Prop :=
  ∀ upper, declaration.Above upper → upper.name ∈ seen

/-- What has been met of the names above a type stays met. -/
theorem IsDone.mono {seen later : List String} (done : IsDone seen declaration)
    (grows : ∀ name ∈ seen, name ∈ later) : IsDone later declaration :=
  fun upper above => grows upper.name (done upper above)

/-- All names above a type have been met when the names of its parents and all names above these
have been. -/
theorem isDone_of_parents {seen : List String}
    (done : ∀ parent ∈ declaration.parents, parent.name ∈ seen ∧ IsDone seen parent) :
    IsDone seen declaration := by
  intro upper above
  obtain ⟨parent, isParent, rfl | above⟩ := above_iff.1 above
  · exact (done parent isParent).1
  · exact (done parent isParent).2 upper above

/-- Whether a search may go on at a type: what has been met is done, but for the types on the way
down from there. -/
def IsReady (registry : Registry) (seen : List String) (declaration : Declaration) : Prop :=
  ∀ other ∈ registry.declared, other.name ∈ seen →
    IsDone seen other ∨ other = declaration ∨ other.Above declaration

/-- What the search at a type has done when it has visited some of the parents: the names that it
has added are those of types above the type, once each, and all that it has met is done. -/
structure Visited (registry : Registry) (before : List String) (declaration : Declaration)
    (parents : List Declaration) (after : List String) : Prop where
  /-- Names that were met stay met. -/
  mono : ∀ name ∈ before, name ∈ after
  /-- A name that is new is that of a type above. -/
  mem_cases : ∀ name ∈ after,
    name ∈ before ∨ ∃ upper, declaration.Above upper ∧ upper.name = name
  /-- No name has been met twice. -/
  nodup : before.Nodup → after.Nodup
  /-- The parents have been met, and all names above them. -/
  done : ∀ parent ∈ parents, parent.name ∈ after ∧ IsDone after parent
  /-- So have been the names above every type that is new. -/
  done_of_new : ∀ other ∈ registry.declared, other.name ∈ after →
    other.name ∈ before ∨ IsDone after other

namespace Visited

variable {before middle after : List String} {parent : Declaration} {parents : List Declaration}

/-- Without parents nothing is done. -/
theorem nil : Visited registry before declaration [] before where
  mono := fun _ mem => mem
  mem_cases := fun _ mem => .inl mem
  nodup := id
  done := nofun
  done_of_new := fun _ _ mem => .inl mem

/-- Parents are visited one after the other. -/
theorem cons (first : Visited registry before declaration [parent] middle)
    (others : Visited registry middle declaration parents after) :
    Visited registry before declaration (parent :: parents) after where
  mono := fun name mem => others.mono name (first.mono name mem)
  mem_cases := by
    intro name mem
    rcases others.mem_cases name mem with mem | above
    · exact first.mem_cases name mem
    · exact .inr above
  nodup := fun nodup => others.nodup (first.nodup nodup)
  done := by
    obtain ⟨met, done⟩ := first.done parent List.mem_cons_self
    exact List.forall_mem_cons.2 ⟨⟨others.mono _ met, done.mono others.mono⟩, others.done⟩
  done_of_new := by
    intro other mem met
    rcases others.done_of_new other mem met with met | done
    · exact (first.done_of_new other mem met).imp_right (·.mono others.mono)
    · exact .inr done

/-- The search may go on afterwards. -/
theorem isReady (visited : Visited registry before declaration parents after)
    (ready : IsReady registry before declaration) : IsReady registry after declaration := by
  intro other mem met
  rcases visited.done_of_new other mem met with met | done
  · exact (ready other mem met).imp_left (·.mono visited.mono)
  · exact .inl done

/-- A parent that has been met is not visited again. It does not lie on the way down, so it is
done. -/
theorem skip (wellFormed : registry.WellFormed) (mem : declaration ∈ registry.declared)
    (ready : IsReady registry before declaration) (isParent : parent ∈ declaration.parents)
    (met : parent.name ∈ before) : Visited registry before declaration [parent] before := by
  have done : IsDone before parent := by
    have smaller := Declaration.sizeOf_lt_of_mem_parents isParent
    rcases ready parent (wellFormed.parent_mem _ mem _ isParent) met with done | rfl | above
    · exact done
    · exact absurd smaller (Nat.lt_irrefl _)
    · exact absurd (smaller.trans (sizeOf_lt_of_above above)) (Nat.lt_irrefl _)
  exact ⟨fun _ mem => mem, fun _ mem => .inl mem, id,
    List.forall_mem_singleton.2 ⟨met, done⟩, fun _ _ mem => .inl mem⟩

/-- A parent that has not been met is visited, and its own parents are. -/
theorem enter (wellFormed : registry.WellFormed) (mem : declaration ∈ registry.declared)
    (isParent : parent ∈ declaration.parents) (new : parent.name ∉ before)
    (visited : Visited registry (parent.name :: before) parent parent.parents after) :
    Visited registry before declaration [parent] after where
  mono := fun name mem => visited.mono name (List.mem_cons_of_mem _ mem)
  mem_cases := by
    intro name mem
    rcases visited.mem_cases name mem with mem | ⟨upper, above, rfl⟩
    · rcases List.mem_cons.1 mem with rfl | mem
      · exact .inr ⟨parent, .single isParent, rfl⟩
      · exact .inl mem
    · exact .inr ⟨upper, .head isParent above, rfl⟩
  nodup := fun nodup => visited.nodup (List.nodup_cons.2 ⟨new, nodup⟩)
  done := List.forall_mem_singleton.2
    ⟨visited.mono _ List.mem_cons_self, isDone_of_parents visited.done⟩
  done_of_new := by
    intro other otherMem met
    rcases visited.done_of_new other otherMem met with met | done
    · rcases List.mem_cons.1 met with same | met
      · have parentMem := wellFormed.parent_mem declaration mem parent isParent
        rw [wellFormed.eq_of_name_eq otherMem parentMem same]
        exact .inr (isDone_of_parents visited.done)
      · exact .inl met
    · exact .inr done

end Visited

/-- A search that has met nothing may start anywhere. -/
theorem isReady_nil : IsReady registry [] declaration :=
  fun _ _ met => nomatch met

/-- The way down to a parent that is entered leads through the type itself. -/
theorem IsReady.enter {before : List String} {parent : Declaration}
    (wellFormed : registry.WellFormed) (mem : declaration ∈ registry.declared)
    (ready : IsReady registry before declaration) (isParent : parent ∈ declaration.parents) :
    IsReady registry (parent.name :: before) parent := by
  intro other otherMem met
  rcases List.mem_cons.1 met with same | met
  · have parentMem := wellFormed.parent_mem declaration mem parent isParent
    exact .inr (.inl (wellFormed.eq_of_name_eq otherMem parentMem same))
  · rcases ready other otherMem met with done | rfl | above
    · exact .inl (done.mono fun name mem => List.mem_cons_of_mem _ mem)
    · exact .inr (.inr (.single isParent))
    · exact .inr (.inr (.tail above isParent))

/-- The search at a type visits its parents. -/
theorem WellFormed.visited_ancestors (wellFormed : registry.WellFormed) {seen : List String}
    (mem : declaration ∈ registry.declared) (ready : IsReady registry seen declaration) :
    Visited registry seen declaration declaration.parents (declaration.ancestors seen) := by
  induction declaration using Declaration.inductionOnParents generalizing seen with
  | step child ih =>
    rw [Declaration.ancestors_eq]
    -- the parents that are left to visit are parents of the type
    suffices visits : ∀ parents : List Declaration, (∀ parent ∈ parents, parent ∈ child.parents) →
        ∀ seen, IsReady registry seen child →
          Visited registry seen child parents (parents.foldl (fun seen parent =>
            if seen.contains parent.name then seen
            else parent.ancestors (parent.name :: seen)) seen) from
      visits child.parents (fun _ mem => mem) seen ready
    intro parents areParents
    induction parents with
    | nil => exact fun seen _ => .nil
    | cons parent parents visits =>
      intro seen ready
      rw [List.forall_mem_cons] at areParents
      have isParent := areParents.1
      have first : Visited registry seen child [parent] (if seen.contains parent.name then seen
          else parent.ancestors (parent.name :: seen)) := by
        by_cases met : parent.name ∈ seen
        · rw [if_pos (List.contains_iff_mem.2 met)]
          exact .skip wellFormed mem ready isParent met
        · rw [if_neg (by simpa using met)]
          have parentMem := wellFormed.parent_mem child mem parent isParent
          exact .enter wellFormed mem isParent met
            (ih parent isParent parentMem (ready.enter wellFormed mem isParent))
      exact first.cons (visits areParents.2 _ (first.isReady ready))

/-! ## The level -/

namespace WellFormed

/-- The search from a type meets the names of the types above it. -/
theorem mem_ancestors_iff (wellFormed : registry.WellFormed)
    (mem : declaration ∈ registry.declared) {name : String} :
    name ∈ declaration.ancestors [] ↔ ∃ upper, declaration.Above upper ∧ upper.name = name := by
  have visited := wellFormed.visited_ancestors mem isReady_nil
  constructor
  · intro met
    exact (visited.mem_cases name met).resolve_left List.not_mem_nil
  · rintro ⟨upper, above, rfl⟩
    exact isDone_of_parents visited.done upper above

/-- It meets every name once. -/
theorem nodup_ancestors (wellFormed : registry.WellFormed)
    (mem : declaration ∈ registry.declared) : (declaration.ancestors []).Nodup :=
  (wellFormed.visited_ancestors mem isReady_nil).nodup List.nodup_nil

/-- The level grows on the way down. -/
theorem level_lt_of_above (wellFormed : registry.WellFormed) (mem : lower ∈ registry.declared)
    (above : lower.Above upper) : upper.level < lower.level := by
  have upperMem := wellFormed.above_mem mem above
  -- above the lower type there are the upper type and what is above it
  have nodup : (upper.name :: upper.ancestors []).Nodup := by
    refine List.nodup_cons.2 ⟨fun met => ?_, wellFormed.nodup_ancestors upperMem⟩
    obtain ⟨higher, higherAbove, same⟩ := (wellFormed.mem_ancestors_iff upperMem).1 met
    exact wellFormed.above_name_ne upperMem higherAbove same
  have subset : upper.name :: upper.ancestors [] ⊆ lower.ancestors [] := by
    intro name met
    rw [wellFormed.mem_ancestors_iff mem]
    rcases List.mem_cons.1 met with rfl | met
    · exact ⟨upper, above, rfl⟩
    · obtain ⟨higher, higherAbove, rfl⟩ := (wellFormed.mem_ancestors_iff upperMem).1 met
      exact ⟨higher, above.trans higherAbove, rfl⟩
  exact (List.subperm_of_subset nodup subset).length_le

end WellFormed

/-- Nothing is above a type without parents. -/
theorem level_of_parents_eq_nil (none : declaration.parents = []) : declaration.level = 0 := by
  rw [Declaration.level, Declaration.ancestors_eq, none]
  rfl

/-- A type is above every type that it accepts, but for itself and for what the root accepts. -/
theorem WellFormed.above_of_accepts (wellFormed : registry.WellFormed)
    (lowerMem : lower ∈ registry.declared) (upperMem : upper ∈ registry.declared)
    (accepts : upper.accepts lower = true) (different : upper ≠ lower)
    (notTop : upper.isTop = false) : lower.Above upper := by
  induction lower using Declaration.inductionOnParents with
  | step child ih =>
    rcases (wellFormed.accepts_iff upperMem lowerMem).1 accepts with
      same | ⟨-, -, top | ⟨parent, isParent, accepts⟩⟩
    · exact absurd same different
    · rw [notTop] at top
      cases top
    · by_cases same : upper = parent
      · exact same ▸ .single isParent
      · have parentMem := wellFormed.parent_mem child lowerMem parent isParent
        exact .head isParent (ih parent isParent parentMem accepts same)

end Registry

end GenericTypes
