import Mathlib.Data.String.Basic
import GenericTypes.Proofs.Registry.Atomicity

/-! # Definitions in either order

A definition reads names that were known before it. A further type that is declared in between takes
none of these names away: its own name was free, the names of parameters and of the type that is
defined come first in any case, and arrays are never declared. So what a definition declares is
declared after another one as well, and two definitions that a registry accepts can be made in
either order. -/

namespace GenericTypes

/-! ## What a definition stands for when more is known -/

section Find

variable {before after : String → Except RegistryError RawType}

/-- A bare name that stands for something still does when more names do. -/
theorem Definition.keepsSuccess_resolveName (kept : ∀ name, KeepsSuccess (before name) (after name))
    (definition : Definition) (name : String) :
    KeepsSuccess (definition.resolveName before name) (definition.resolveName after name) := by
  unfold resolveName
  split
  · exact .refl _
  · split
    · exact .refl _
    · exact (kept name).bind fun raw => .refl _

/-- A signature that stands for something still does when more names do. -/
theorem Signature.keepsSuccess_resolve (kept : ∀ name, KeepsSuccess (before name) (after name))
    (definition : Definition) (signature : Signature) :
    KeepsSuccess (signature.resolve before definition) (signature.resolve after definition) := by
  induction signature using Signature.inductionOnArguments with
  | malformed text =>
    rw [resolve, resolve]
    exact .refl _
  | applied base arguments ih =>
    rw [resolve_applied, resolve_applied]
    split
    · exact definition.keepsSuccess_resolveName kept base
    · refine (kept base).bind fun raw => ?_
      -- the arity is that of the same type
      split
      · exact .of_error _ _
      · exact (KeepsSuccess.mapM ih).bind fun uses => .refl _

namespace Registry

/-- A supertype that is found still is when more names are known. -/
theorem keepsSuccess_supertype (kept : ∀ name, KeepsSuccess (before name) (after name))
    (definition : Definition) (isWanted : Declaration → Bool) (fault : String → DefinitionFault)
    (signature : String) :
    KeepsSuccess (supertype before definition isWanted fault signature)
      (supertype after definition isWanted fault signature) :=
  ((Signature.ofText signature).keepsSuccess_resolve kept definition).bind fun _ => .refl _

/-- The interfaces of a definition are found when more names are known. -/
theorem keepsSuccess_interfaces (kept : ∀ name, KeepsSuccess (before name) (after name))
    (definition : Definition) :
    KeepsSuccess (interfaces before definition) (interfaces after definition) :=
  .mapM fun signature _ => keepsSuccess_supertype kept definition _ _ signature

/-- The superclass of a definition is found in a registry with the same root that knows more. -/
theorem keepsSuccess_superclass {registry later : Registry}
    (root : later.topName = registry.topName)
    (kept : ∀ name, KeepsSuccess (before name) (after name)) (definition : Definition) :
    KeepsSuccess (registry.superclass before definition) (later.superclass after definition) := by
  unfold superclass
  rw [root]
  split
  · exact .refl _
  · exact keepsSuccess_supertype kept definition _ _ _

end Registry

end Find

namespace Registry

variable {registry later : Registry} {definition first second : Definition}
  {declaration left right : Declaration}

/-- What a definition declares it declares in every registry with the same root that knows at least
as much and has not declared the name. -/
theorem keepsSuccess_declaration (root : later.topName = registry.topName)
    (kept : ∀ name, KeepsSuccess (registry.find name) (later.find name))
    (free : later.contains definition.name = registry.contains definition.name) :
    KeepsSuccess (registry.declaration definition) (later.declaration definition) := by
  unfold Registry.declaration declarationBy
  rw [free]
  -- the checks are those of the definition and of its name alone
  cases definition.fault? with
  | some fault => exact .refl _
  | none =>
    cases registry.contains definition.name with
    | true => exact .refl _
    | false =>
      cases definition.isInterface with
      | true =>
        cases definition.superclass.isSome with
        | true => exact .refl _
        | false => exact (keepsSuccess_interfaces kept definition).bind fun _ => .refl _
      | false =>
        refine (keepsSuccess_superclass root kept definition).bind fun superclass => ?_
        exact (keepsSuccess_interfaces kept definition).bind fun _ => .refl _

namespace WellFormed

/-- What a definition declares it declares after another definition under another name, too. -/
theorem declaration_define (wellFormed : registry.WellFormed)
    (accepted : registry.declaration definition = .ok declaration) {other : Definition}
    (different : other.name ≠ definition.name) :
    (registry.define other).2.declaration definition = .ok declaration := by
  have free : (registry.define other).2.contains definition.name
      = registry.contains definition.name := by
    rw [contains, contains, declared?_define_of_ne different]
  have kept : ∀ name, KeepsSuccess (registry.find name) ((registry.define other).2.find name) :=
    fun name raw found => wellFormed.find_define other found
  exact keepsSuccess_declaration (topName_define registry other) kept free declaration accepted

/-- Two definitions that are accepted under different names declare the same types in either order,
the one that is made later ahead of the other. -/
theorem declared_define_define (wellFormed : registry.WellFormed)
    (firstAccepted : registry.declaration first = .ok left)
    (secondAccepted : registry.declaration second = .ok right)
    (different : first.name ≠ second.name) :
    ((registry.define first).2.define second).2.declared = right :: left :: registry.declared := by
  rw [declared_define, declared_define, wellFormed.declaration_define secondAccepted different,
    firstAccepted]
  rfl

/-- Registries that have declared the same types in different orders know the same types under the
same names. -/
theorem declared?_eq_of_perm (wellFormed : registry.WellFormed) (other : later.WellFormed)
    (same : registry.declared.Perm later.declared) : registry.declared? = later.declared? := by
  funext name
  cases found : registry.declared? name with
  | some declaration =>
    obtain ⟨mem, rfl⟩ := mem_of_declared? found
    exact (other.declared?_name (same.mem_iff.1 mem)).symm
  | none =>
    cases answer : later.declared? name with
    | none => rfl
    | some declaration =>
      obtain ⟨mem, rfl⟩ := mem_of_declared? answer
      rw [wellFormed.declared?_name (same.mem_iff.2 mem)] at found
      cases found

/-- Such registries find the same under every name. -/
theorem find_eq_of_perm (wellFormed : registry.WellFormed) (other : later.WellFormed)
    (same : registry.declared.Perm later.declared) : registry.find = later.find := by
  funext name
  rw [← wellFormed.lookUpAmong_eq_find, ← other.lookUpAmong_eq_find,
    wellFormed.declared?_eq_of_perm other same]

end WellFormed

/-- Registries that have declared the same types in different orders list the same names. -/
theorem names_eq_of_perm (same : registry.declared.Perm later.declared) :
    registry.names = later.names := by
  have perm : registry.names.Perm later.names :=
    (names_perm registry).trans ((same.map _).trans (names_perm later).symm)
  have ascending : ∀ registry : Registry, registry.names.Pairwise (· ≤ ·) := by
    intro registry
    have sorted : registry.names.Pairwise fun a b => decide (a ≤ b) = true :=
      List.pairwise_mergeSort (fun a b c => by simpa using le_trans)
        (fun a b => by simpa using le_total a b) _
    exact sorted.imp fun le => of_decide_eq_true le
  exact perm.eq_of_pairwise (fun _ _ _ _ => le_antisymm) (ascending registry) (ascending later)

/-! ## The main theorem -/

/-- **Definitions under different names can be made in either order.** Take two definitions that a
registry accepts, each by itself, in any registry that calls lead to. After either of them the other
one is accepted as well and declares what it declares by itself: a type of the same kind, with the
same parameters and the same supertypes. Both orders lead to registries with the same names, in
which every look-up gives the same. -/
theorem IsReachable.define_comm (reached : registry.IsReachable)
    (firstAccepted : (registry.define first).1 = .ok left)
    (secondAccepted : (registry.define second).1 = .ok right)
    (different : first.name ≠ second.name) :
    ((registry.define first).2.define second).1 = .ok right
      ∧ ((registry.define second).2.define first).1 = .ok left
      ∧ ((registry.define first).2.define second).2.names
        = ((registry.define second).2.define first).2.names
      ∧ ∀ name, (((registry.define first).2.define second).2.lookup name).1
        = (((registry.define second).2.define first).2.lookup name).1 := by
  have wellFormed := reached.wellFormed
  rw [define_fst] at firstAccepted secondAccepted
  -- both orders declare the same types, the one that is made later ahead
  have perm : ((registry.define first).2.define second).2.declared.Perm
      ((registry.define second).2.define first).2.declared := by
    rw [wellFormed.declared_define_define firstAccepted secondAccepted different,
      wellFormed.declared_define_define secondAccepted firstAccepted different.symm]
    exact .swap left right registry.declared
  refine ⟨?_, ?_, names_eq_of_perm perm, fun name => ?_⟩
  · rw [define_fst]
    exact wellFormed.declaration_define secondAccepted different
  · rw [define_fst]
    exact wellFormed.declaration_define firstAccepted different.symm
  · have firstThen := (wellFormed.define first).define second
    exact congrFun (firstThen.find_eq_of_perm ((wellFormed.define second).define first) perm) name

/-- Below a root with an ordering interface, a class that is ordered among its own kind commutes
with one whose parameter has the name of that class. -/
theorem IsReachable.define_comm_ordered :
    let registry := ((ofTop "Root").define
      { name := "Order", isInterface := true, parameters := ["T"] }).2
    let order : Declaration := .interface "Order" ["T"] []
    let first : Definition := { name := "A", interfaces := ["Order<A>"] }
    let second : Definition := { name := "B", parameters := ["A"], interfaces := ["Order<A>"] }
    let left : Declaration := .ordinary "A" [] ⟨.top "Root", []⟩ [⟨order, [.named "A"]⟩]
    let right : Declaration := .ordinary "B" ["A"] ⟨.top "Root", []⟩ [⟨order, [.parameter "A" []]⟩]
    registry.IsReachable
      ∧ (registry.define first).1 = .ok left
      ∧ (registry.define second).1 = .ok right
      ∧ first.name ≠ second.name
      ∧ ((registry.define first).2.define second).1 = .ok right
      ∧ ((registry.define second).2.define first).1 = .ok left
      ∧ ((registry.define first).2.define second).2.names
        = ((registry.define second).2.define first).2.names
      ∧ ∀ name, (((registry.define first).2.define second).2.lookup name).1
        = (((registry.define second).2.define first).2.lookup name).1 := by
  intro registry order first second left right
  have reached : registry.IsReachable := ⟨_, .ofTop "Root", .define .start _⟩
  have declared : registry = (ofTop "Root").insert order := by
    have accepted : (ofTop "Root").define
        { name := "Order", isInterface := true, parameters := ["T"] }
        = (.ok order, (ofTop "Root").insert order) := by
      refine define_eq_of_declarationBy ?_ (by decide)
      rfl
    exact congrArg Prod.snd accepted
  have signature : Signature.ofText "Order<A>" = .applied "Order" [.applied "A" []] := by
    have outer : Signature.split? "Order<A>" = some ("Order", ["A"]) := by decide
    have inner : Signature.split? "A" = some ("A", []) := by decide
    rw [Signature.ofText_of_split? outer, List.map_cons, Signature.ofText_of_split? inner]
    rfl
  have firstAccepted : (registry.define first).1 = .ok left := by
    rw [define_fst, declared]
    simp only [declaration, declarationBy, interfaces, first, List.mapM_cons, List.mapM_nil,
      supertype, signature, Signature.resolve_applied]
    rfl
  have secondAccepted : (registry.define second).1 = .ok right := by
    rw [define_fst, declared]
    simp only [declaration, declarationBy, interfaces, second, List.mapM_cons, List.mapM_nil,
      supertype, signature, Signature.resolve_applied]
    rfl
  have different : first.name ≠ second.name := by decide
  exact ⟨reached, firstAccepted, secondAccepted, different,
    reached.define_comm firstAccepted secondAccepted different⟩

end Registry

end GenericTypes
