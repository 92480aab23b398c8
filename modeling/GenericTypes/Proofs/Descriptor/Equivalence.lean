import GenericTypes.Proofs.Descriptor.Places
import GenericTypes.Proofs.Descriptor.RoundTrip

/-! # Equality as an equivalence

Equality of descriptors is an equivalence relation, with markers inside or without. What can be seen
of a descriptor from outside, its canonical text, its depth and its fingerprint, depends on its
normal form only. In the other direction the fingerprint says everything about a descriptor that
equality looks at, since it ends where it has to: descriptors are equal exactly when their
fingerprints are. The canonical text says as much about a descriptor without markers whose names can
be told apart in a text, because a text can be read in one way only. -/

namespace GenericTypes

namespace Descriptor

variable {left middle right : Descriptor}

/-! ## The equivalence -/

/-- Lists are equal the other way round if their members are. -/
theorem equalAll_symm {lefts rights : List Descriptor}
    (symm : ∀ left ∈ lefts, ∀ right : Descriptor, left.equal right = true →
      right.equal left = true)
    (equal : equalAll lefts rights = true) : equalAll rights lefts = true := by
  induction lefts generalizing rights with
  | nil =>
    cases rights with
    | nil => rfl
    | cons right rights => cases equal
  | cons left lefts ih =>
    cases rights with
    | nil => cases equal
    | cons right rights =>
      rw [List.forall_mem_cons] at symm
      rw [equalAll, Bool.and_eq_true] at equal ⊢
      exact ⟨symm.1 right equal.1, ih symm.2 equal.2⟩

/-- Equality holds the other way round. -/
theorem equal_symm (equal : left.equal right = true) : right.equal left = true := by
  induction left using inductionOnArguments generalizing right with
  | step left ih =>
    cases kind : left.identity with
    | true =>
      obtain ⟨marker, address⟩ := (equal_iff_of_identity kind).1 equal
      exact (equal_iff_of_identity marker).2 ⟨kind, address.symm⟩
    | false =>
      obtain ⟨plain, names, arguments⟩ := equal_cases equal kind
      rw [equal_eq plain kind, Bool.and_eq_true, RawType.beq_iff]
      exact ⟨names.symm, equalAll_symm (fun argument mem _ => ih argument mem) arguments⟩

/-- Lists that are equal to the same list are equal if their members are. -/
theorem equalAll_trans {lefts middles rights : List Descriptor}
    (trans : ∀ left ∈ lefts, ∀ middle right : Descriptor, left.equal middle = true →
      middle.equal right = true → left.equal right = true)
    (first : equalAll lefts middles = true) (second : equalAll middles rights = true) :
    equalAll lefts rights = true := by
  induction lefts generalizing middles rights with
  | nil =>
    cases middles with
    | nil => exact second
    | cons middle middles => cases first
  | cons left lefts ih =>
    cases middles with
    | nil => cases first
    | cons middle middles =>
      cases rights with
      | nil => cases second
      | cons right rights =>
        rw [List.forall_mem_cons] at trans
        rw [equalAll, Bool.and_eq_true] at first second ⊢
        exact ⟨trans.1 middle right first.1 second.1, ih trans.2 first.2 second.2⟩

/-- What is equal to something equal is equal. -/
theorem equal_trans (first : left.equal middle = true) (second : middle.equal right = true) :
    left.equal right = true := by
  induction left using inductionOnArguments generalizing middle right with
  | step left ih =>
    cases kind : left.identity with
    | true =>
      -- all three are the same node
      obtain ⟨marker, address⟩ := (equal_iff_of_identity kind).1 first
      obtain ⟨last, place⟩ := (equal_iff_of_identity marker).1 second
      exact (equal_iff_of_identity kind).2 ⟨last, address.trans place⟩
    | false =>
      obtain ⟨plain, names, arguments⟩ := equal_cases first kind
      obtain ⟨last, others, rest⟩ := equal_cases second plain
      rw [equal_eq kind last, Bool.and_eq_true, RawType.beq_iff]
      exact ⟨names.trans others,
        equalAll_trans (fun argument mem _ _ => ih argument mem) arguments rest⟩

/-- Equality of descriptors is an equivalence relation. -/
instance : EquivBEq Descriptor where
  rfl := equal_of_unplaced_eq rfl
  symm := equal_symm
  trans := equal_trans

end Descriptor

/-- Equality of optional values is an equivalence relation if equality of the values is. -/
instance equivBEqOption {α : Type} [BEq α] [EquivBEq α] : EquivBEq (Option α) where
  symm := by
    intro left right equal
    cases left <;> cases right <;> simp_all [BEq.symm]
  trans := by
    intro left middle right first second
    cases left <;> cases middle <;> cases right <;> simp_all
    exact BEq.trans first second

namespace Carrier

variable {α : Type} [BEq α] {left right : Carrier α}

/-- Carriers are equal when their descriptors and their values are. -/
theorem beq_iff : (left == right) = true ↔
    (left.descriptor == right.descriptor) = true ∧ (left.payload == right.payload) = true := by
  show left.equal right = true ↔ _
  rw [equal, Bool.and_eq_true]

/-- Equality of carriers is an equivalence relation if equality of the values is. -/
instance [EquivBEq α] : EquivBEq (Carrier α) where
  rfl := beq_iff.2 ⟨BEq.rfl, BEq.rfl⟩
  symm := fun equal =>
    have ⟨descriptors, payloads⟩ := beq_iff.1 equal
    beq_iff.2 ⟨BEq.symm descriptors, BEq.symm payloads⟩
  trans := fun first second =>
    have ⟨descriptors, payloads⟩ := beq_iff.1 first
    have ⟨others, values⟩ := beq_iff.1 second
    beq_iff.2 ⟨BEq.trans descriptors others, BEq.trans payloads values⟩

end Carrier

namespace Descriptor

variable {left right : Descriptor}

/-! ## What normal forms keep -/

/-- What the normal form of no argument changes is the same for the arguments of a normal form. -/
theorem map_map_unplaced {β : Type} {g : Descriptor → β} {arguments : List Descriptor}
    (same : ∀ argument ∈ arguments, g argument.unplaced = g argument) :
    (arguments.map unplaced).map g = arguments.map g := by
  rw [List.map_map]
  exact List.map_congr_left same

/-- The normal form has the same canonical text. -/
@[simp] theorem canonical_unplaced (descriptor : Descriptor) :
    descriptor.unplaced.canonical = descriptor.canonical := by
  induction descriptor using inductionOnArguments with
  | step descriptor ih =>
    cases kind : descriptor.identity with
    | true => rw [unplaced_of_identity kind]
    | false =>
      have texts : (descriptor.arguments.map unplaced).map (render RawType.name)
          = descriptor.arguments.map (render RawType.name) := map_map_unplaced ih
      rw [unplaced_of_plain kind, canonical, render, canonical, render, texts, List.isEmpty_map]

/-- The normal form has the same depth. -/
@[simp] theorem depth_unplaced (descriptor : Descriptor) :
    descriptor.unplaced.depth = descriptor.depth := by
  induction descriptor using inductionOnArguments with
  | step descriptor ih =>
    cases kind : descriptor.identity with
    | true => rw [unplaced_of_identity kind]
    | false =>
      have depths : ∀ argument ∈ descriptor.arguments,
          argument.unplaced.depth + 1 = argument.depth + 1 :=
        fun argument mem => congrArg (· + 1) (ih argument mem)
      rw [unplaced_of_plain kind, depth, depth, map_map_unplaced depths]

/-- The normal form has the same fingerprint. -/
@[simp] theorem fingerprint_unplaced (descriptor : Descriptor) :
    descriptor.unplaced.fingerprint = descriptor.fingerprint := by
  induction descriptor using inductionOnArguments with
  | step descriptor ih =>
    cases kind : descriptor.identity with
    | true => rw [unplaced_of_identity kind]
    | false =>
      rw [unplaced_of_plain kind, fingerprint, fingerprint, if_neg Bool.false_ne_true, kind,
        if_neg Bool.false_ne_true, List.length_map, List.flatMap_def, List.flatMap_def,
        map_map_unplaced ih]

/-! ## What fingerprints say -/

/-- The fingerprint of a marker is its node. -/
theorem fingerprint_of_identity (marker : left.identity = true) :
    left.fingerprint = [.node left.address] := by
  rw [fingerprint, if_pos marker]

/-- Any other fingerprint starts with a name and says how many arguments follow. -/
theorem fingerprint_of_plain (plain : left.identity = false) :
    left.fingerprint = .name left.raw.name :: .arity left.arguments.length
      :: left.arguments.flatMap fingerprint := by
  rw [fingerprint, if_neg (ne_true_of_eq_false plain)]

/-- Where as many fingerprints stand in a row, the descriptors are equal one by one and the rows end
at the same place, if this holds of each fingerprint in front. -/
theorem equalAll_of_flatMap_fingerprint {lefts rights : List Descriptor}
    (each : ∀ left ∈ lefts, ∀ (right : Descriptor) (rest other : List Mark),
      left.fingerprint ++ rest = right.fingerprint ++ other →
        left.equal right = true ∧ rest = other)
    (lengths : lefts.length = rights.length) {rest other : List Mark}
    (same : lefts.flatMap fingerprint ++ rest = rights.flatMap fingerprint ++ other) :
    equalAll lefts rights = true ∧ rest = other := by
  induction lefts generalizing rights with
  | nil =>
    rw [List.eq_nil_of_length_eq_zero lengths.symm] at same ⊢
    exact ⟨rfl, same⟩
  | cons left lefts ih =>
    cases rights with
    | nil => cases lengths
    | cons right rights =>
      rw [List.forall_mem_cons] at each
      rw [List.flatMap_cons, List.flatMap_cons, List.append_assoc, List.append_assoc] at same
      obtain ⟨first, same⟩ := each.1 right _ _ same
      obtain ⟨others, same⟩ := ih each.2 (Nat.succ.inj lengths) same
      rw [equalAll, first, others]
      exact ⟨rfl, same⟩

/-- Where a text of marks starts with two fingerprints, the descriptors are equal, and both
fingerprints end at the same place. -/
theorem equal_of_fingerprint_append {rest other : List Mark}
    (same : left.fingerprint ++ rest = right.fingerprint ++ other) :
    left.equal right = true ∧ rest = other := by
  induction left using inductionOnArguments generalizing right rest other with
  | step left ih =>
    cases kind : left.identity with
    | true =>
      cases marker : right.identity with
      | true =>
        rw [fingerprint_of_identity kind, fingerprint_of_identity marker, List.singleton_append,
          List.singleton_append, List.cons.injEq, Mark.node.injEq] at same
        exact ⟨(equal_iff_of_identity kind).2 ⟨marker, same.1⟩, same.2⟩
      | false =>
        rw [fingerprint_of_identity kind, fingerprint_of_plain marker] at same
        cases (List.cons.inj same).1
    | false =>
      cases marker : right.identity with
      | true =>
        rw [fingerprint_of_plain kind, fingerprint_of_identity marker] at same
        cases (List.cons.inj same).1
      | false =>
        rw [fingerprint_of_plain kind, fingerprint_of_plain marker] at same
        simp only [List.cons_append, List.cons.injEq, Mark.name.injEq, Mark.arity.injEq] at same
        obtain ⟨names, lengths, same⟩ := same
        obtain ⟨arguments, same⟩ := equalAll_of_flatMap_fingerprint
          (fun argument mem _ _ _ => ih argument mem) lengths same
        rw [equal_eq kind marker, Bool.and_eq_true, RawType.beq_iff]
        exact ⟨⟨names, arguments⟩, same⟩

/-- Equal descriptors have the same fingerprint. -/
theorem fingerprint_eq_of_equal (equal : left.equal right = true) :
    right.fingerprint = left.fingerprint := by
  induction left using inductionOnArguments generalizing right with
  | step left ih =>
    cases kind : left.identity with
    | true =>
      obtain ⟨marker, address⟩ := (equal_iff_of_identity kind).1 equal
      rw [fingerprint_of_identity kind, fingerprint_of_identity marker, address]
    | false =>
      obtain ⟨plain, names, arguments⟩ := equal_cases equal kind
      have marks : right.arguments.map fingerprint = left.arguments.map fingerprint :=
        map_eq_of_equalAll arguments fun argument mem _ _ same => ih argument mem same
      have lengths := congrArg List.length marks
      rw [List.length_map, List.length_map] at lengths
      rw [fingerprint_of_plain kind, fingerprint_of_plain plain, names, lengths, List.flatMap_def,
        List.flatMap_def, marks]

/-- Descriptors are equal exactly when their fingerprints are the same. -/
theorem equal_iff_fingerprint_eq :
    left.equal right = true ↔ left.fingerprint = right.fingerprint := by
  refine ⟨fun equal => (fingerprint_eq_of_equal equal).symm, fun same => ?_⟩
  exact (equal_of_fingerprint_append (congrArg (· ++ []) same)).1

/-! ## What canonical texts say -/

instance (c : Char) : Decidable (IsNameChar c) :=
  inferInstanceAs (Decidable (_ ∧ _))

instance (text : List Char) : Decidable (IsName text) :=
  letI : Decidable (∀ c ∈ text, IsNameChar c) := List.decidableBAll _ _
  inferInstanceAs (Decidable (_ ∧ ∀ c ∈ text, IsNameChar c))

/-- A type of a given name. -/
def typeCalled (name : String) : RawType :=
  .ofDeclaration (.top name)

/-- A place where every name that can be told apart in a text stands for a type of that name. -/
def nameScope : Scope where
  find := fun name =>
    if IsName name.toList then .ok (typeCalled name) else .error (.typeNotFound name)
  top := typeCalled ""

/-- Every name stands for a type of that name. -/
theorem find_nameScope {name : String} (isName : IsName name.toList) :
    nameScope.find name = .ok (typeCalled name) :=
  if_pos isName

/-- What a name stands for is a type of that name, and the name can be told apart. -/
theorem find_nameScope_cases {name : String} {raw : RawType}
    (found : nameScope.find name = .ok raw) : IsName name.toList ∧ raw = typeCalled name := by
  by_cases isName : IsName name.toList
  · rw [find_nameScope isName] at found
    exact ⟨isName, (Except.ok.inj found).symm⟩
  · have missing : nameScope.find name = .error (.typeNotFound name) := if_neg isName
    rw [missing] at found
    cases found

/-- A text can be read where every name stands for a type of that name. -/
theorem isReadable_nameScope : nameScope.IsReadable where
  name_eq := fun found => congrArg RawType.name (find_nameScope_cases found).2
  isName := fun found => (find_nameScope_cases found).1

/-- Descriptors without markers whose names can be told apart in a text are equal when their
canonical texts are. -/
theorem equal_of_canonical_eq
    (leftNodes : ∀ node ∈ left.nodes, node.identity = false ∧ IsName node.raw.name.toList)
    (rightNodes : ∀ node ∈ right.nodes, node.identity = false ∧ IsName node.raw.name.toList)
    (same : left.canonical = right.canonical) : left.equal right = true := by
  let f (raw : RawType) := typeCalled raw.name
  have names : ∀ raw, (f raw).name = raw.name := fun _ => rfl
  let options : ReadOptions := ⟨max left.depth right.depth, false⟩
  let here : Address := ⟨0, []⟩
  -- what is read from a canonical text is the descriptor, made of types of the same names
  have read : ∀ descriptor : Descriptor, descriptor.depth ≤ options.maxDepth →
      (∀ node ∈ descriptor.nodes, node.identity = false ∧ IsName node.raw.name.toList) →
      readOne nameScope options here descriptor.canonical
        = .ok ((descriptor.mapRaw f).erased (here.child 0)) := by
    intro descriptor room nodes
    rw [← canonical_mapRaw names]
    refine readOne_canonical isReadable_nameScope ?_ ((depth_mapRaw descriptor).trans_le room)
    apply forall_nodes_mapRaw (P := fun raw => nameScope.find raw.name = .ok raw)
    exact fun node mem => find_nameScope (nodes node mem).2
  have leftRead := read left (Nat.le_max_left _ _) leftNodes
  rw [same, read right (Nat.le_max_right _ _) rightNodes, Except.ok.injEq] at leftRead
  have leftEqual := equal_erased_mapRaw names (fun node mem => (leftNodes node mem).1)
    (here.child 0)
  rw [← leftRead] at leftEqual
  exact equal_trans (equal_symm leftEqual)
    (equal_erased_mapRaw names (fun node mem => (rightNodes node mem).1) (here.child 0))

end Descriptor

end GenericTypes
