import GenericTypes.Registry.Basic
import GenericTypes.Proofs.Name.Array

/-! # Looking names up

What a name stands for depends on the declared types and on the array types that are remembered. An
array name starts with a bracket and the name of its element does not, so an element is never an
array that is taken apart itself, and an array type that is remembered is in nobody's way: a look-up
changes nothing in what names stand for. -/

namespace GenericTypes

/-- A name without a leading bracket is no array name. -/
theorem ArrayName.ofText?_eq_none {name : String} (plain : name.toList.head? ≠ some '[') :
    ofText? name = none := by
  cases read : ofText? name with
  | none => rfl
  | some array =>
    obtain ⟨rfl, -, positive⟩ := text_of_ofText? read
    exact absurd (head?_toList_text positive) plain

/-- The name of a primitive type has no leading bracket. -/
theorem Primitive.head?_name (type : Primitive) : type.name.toList.head? ≠ some '[' := by
  cases type <;> decide

/-- A name that an array name can refer to has no leading bracket. -/
theorem ArrayElement.IsReadable.head?_ne {name : String}
    (readable : (reference name).IsReadable) : name.toList.head? ≠ some '[' :=
  fun bracket => readable.2.1 (List.mem_of_head? bracket)

namespace Registry

variable {registry other : Registry} {name asked : String}

/-! ## Elements -/

/-- The element of an array name is the same in two registries that know the same types under names
without a leading bracket. -/
theorem component?_congr {element : ArrayElement} (readable : element.IsReadable)
    (same : ∀ name, name.toList.head? ≠ some '[' → registry.known? name = other.known? name) :
    registry.component? element = other.component? element := by
  cases element with
  | primitive code =>
    rw [component?, component?]
    refine Option.bind_congr fun type _ => ?_
    exact same type.name type.head?_name
  | reference name => rw [component?, component?, same name readable.head?_ne]

/-- A name describes the same array type in two such registries. -/
theorem described?_congr
    (same : ∀ name, name.toList.head? ≠ some '[' → registry.known? name = other.known? name)
    (name : String) : registry.described? name = other.described? name := by
  rw [described?, described?]
  refine Option.bind_congr fun array read => ?_
  rw [component?_congr (ArrayName.text_of_ofText? (Option.mem_def.1 read)).2.1 same]

/-- A name that describes an array type starts with a bracket. -/
theorem head?_of_described? {raw : RawType} (described : registry.described? name = some raw) :
    name.toList.head? = some '[' := by
  by_contra plain
  rw [described?, ArrayName.ofText?_eq_none plain] at described
  cases described

/-! ## One look-up -/

/-- A look-up leaves the declared types as they are. -/
@[simp] theorem declared_remember (registry : Registry) (asked : String) :
    (registry.remember asked).declared = registry.declared := by
  unfold remember
  split <;> rfl

/-- A look-up leaves the name of the root as it is. -/
@[simp] theorem topName_remember (registry : Registry) (asked : String) :
    (registry.remember asked).topName = registry.topName := by
  unfold remember
  split <;> rfl

/-- A look-up adds nothing to what is known under other names. -/
theorem known?_remember_of_ne (different : name ≠ asked) :
    (registry.remember asked).known? name = registry.known? name := by
  unfold remember
  split
  · simp only [known?, declared?, List.lookup_cons, beq_false_of_ne different]
  · rfl

/-- After a look-up what the name has described is known under it. -/
theorem known?_remember_self (registry : Registry) (asked : String) :
    (registry.remember asked).known? asked
      = (registry.known? asked).or (registry.described? asked) := by
  unfold remember
  split
  · rename_i array unknown described
    rw [unknown, described, Option.none_or]
    rw [known?] at unknown ⊢
    cases declared : registry.declared? asked with
    | some declaration =>
      rw [declared] at unknown
      cases unknown
    | none =>
      simp only [declared?] at declared ⊢
      simp only [declared, List.lookup_cons_self]
  · rename_i other
    cases known : registry.known? asked with
    | some raw => rfl
    | none =>
      cases described : registry.described? asked with
      | some array => exact absurd described (other array known)
      | none => rfl

/-- A look-up leaves what names describe as it is. -/
theorem described?_remember (registry : Registry) (asked name : String) :
    (registry.remember asked).described? name = registry.described? name := by
  by_cases bracket : asked.toList.head? = some '['
  · refine described?_congr (fun name plain => known?_remember_of_ne ?_) name
    rintro rfl
    exact plain bracket
  · -- a name that describes nothing is not remembered
    have same : registry.remember asked = registry := by
      unfold remember
      split
      · rename_i described
        exact absurd (head?_of_described? described) bracket
      · rfl
    rw [same]

/-- A look-up changes nothing in what names stand for. -/
@[simp] theorem find_remember (registry : Registry) (asked : String) :
    (registry.remember asked).find = registry.find := by
  funext name
  rw [find, find, described?_remember]
  by_cases same : name = asked
  · subst same
    rw [known?_remember_self]
    cases registry.known? name with
    | some raw => rfl
    | none => cases registry.described? name <;> rfl
  · rw [known?_remember_of_ne same]

/-- What a registry does not find it reports under the name that was asked for. -/
theorem find_eq_error {cause : RegistryError} (failed : registry.find name = .error cause) :
    cause = .typeNotFound name := by
  unfold find at failed
  split at failed
  · cases failed
  · split at failed
    · cases failed
    · cases failed
      rfl

/-- A look-up that fails leaves the registry as it is. -/
theorem remember_eq_self {cause : RegistryError} (failed : registry.find asked = .error cause) :
    registry.remember asked = registry := by
  unfold remember
  split
  · rename_i array unknown described
    rw [find, unknown, described] at failed
    cases failed
  · rfl

end Registry

end GenericTypes
