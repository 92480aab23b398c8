import Mathlib.Data.List.Forall2
import GenericTypes.Proofs.Descriptor.Equivalence
import GenericTypes.Proofs.Descriptor.Session

/-! # Equality in sessions

Among the objects of a session equality is what it is meant to be. A marker is equal to itself only,
and a new marker is a node that no other operation has made or will make. Everything else is
compared by its structure, and equal objects cannot be told apart by their texts, their depths and
their hashes. The two directions rest on names: in a registry a name says which raw type it is, so
equal objects have the same normal form; and names can be told apart in a text, so the text of an
object without markers says what its normal form is. -/

namespace GenericTypes

namespace Descriptor

/-- Lists are equal when they are equal position by position. -/
theorem equalAll_iff_forall₂ {lefts rights : List Descriptor} :
    equalAll lefts rights = true ↔
      List.Forall₂ (fun left right => (left == right) = true) lefts rights := by
  induction lefts generalizing rights with
  | nil =>
    cases rights with
    | nil => exact iff_of_true rfl .nil
    | cons right rights => exact iff_of_false nofun nofun
  | cons left lefts ih =>
    cases rights with
    | nil => exact iff_of_false nofun nofun
    | cons right rights =>
      rw [equalAll, Bool.and_eq_true, List.forall₂_cons, ih]
      rfl

/-- Descriptors are equal when they are the same marker, or no markers with raw types of the same
name and equal arguments. -/
theorem beq_iff {left right : Descriptor} :
    (left == right) = true ↔
      (left.identity = true ∧ right.identity = true ∧ left.sameNode right = true)
        ∨ (left.identity = false ∧ right.identity = false ∧ left.raw.name = right.raw.name
          ∧ List.Forall₂ (fun left right => (left == right) = true) left.arguments
            right.arguments) := by
  show left.equal right = true ↔ _
  cases kind : left.identity with
  | true =>
    rw [equal_iff_of_identity kind, sameNode, beq_iff_eq]
    constructor
    · exact fun ⟨marker, same⟩ => .inl ⟨rfl, marker, same⟩
    · rintro (⟨-, marker, same⟩ | ⟨plain, -⟩)
      · exact ⟨marker, same⟩
      · cases plain
  | false =>
    constructor
    · intro equal
      obtain ⟨plain, names, arguments⟩ := equal_cases equal kind
      exact .inr ⟨rfl, plain, names, equalAll_iff_forall₂.1 arguments⟩
    · rintro (⟨marker, -⟩ | ⟨-, plain, names, arguments⟩)
      · cases marker
      · rw [equal_eq kind plain, Bool.and_eq_true, RawType.beq_iff]
        exact ⟨names, equalAll_iff_forall₂.2 arguments⟩

end Descriptor

namespace Session

variable {α : Type} {session : Session α}

/-! ## Two objects -/

namespace IsSound

variable {left right : Carrier (Option α)}

/-- Objects are the same node when they are the same object. -/
theorem sameNode_iff (sound : session.IsSound) (leftMem : left ∈ session.objects)
    (rightMem : right ∈ session.objects) :
    left.descriptor.sameNode right.descriptor = true ↔ left = right := by
  rw [Descriptor.sameNode, beq_iff_eq]
  constructor
  · exact sound.eq_of_address_eq left leftMem right rightMem
  · rintro rfl
    rfl

/-- Objects are made of raw types of the registry and of markers that are objects themselves. -/
theorem madeOf (sound : session.IsSound) {object : Carrier (Option α)}
    (mem : object ∈ session.objects) :
    object.descriptor.MadeOf (fun raw => raw.element ∈ session.registry.declared)
      fun node => ∃ payload, (⟨node, payload⟩ : Carrier (Option α)) ∈ session.objects := by
  intro node inside
  have object : ∃ payload, (⟨node, payload⟩ : Carrier (Option α)) ∈ session.objects := by
    rcases Descriptor.mem_nodes_iff.1 inside with rfl | ⟨argument, member, below⟩
    · exact ⟨object.payload, mem⟩
    · exact ⟨none, (holds_of_mem_arguments mem member).of_mem_nodes below⟩
  obtain ⟨payload, known⟩ := object
  exact ⟨sound.declared _ known, fun _ => ⟨payload, known⟩⟩

/-- The names of the raw types in an object can be told apart in a text. -/
theorem isName_name (sound : session.IsSound) {object : Carrier (Option α)}
    (mem : object ∈ session.objects) :
    ∀ node ∈ object.descriptor.nodes, IsName node.raw.name.toList := by
  intro node inside
  exact sound.reached.populated.isName_name (sound.madeOf mem node inside).1

variable [BEq α]

/-- Equal objects have the same normal form. -/
theorem unplaced_eq_of_beq (sound : session.IsSound) (leftMem : left ∈ session.objects)
    (rightMem : right ∈ session.objects) (equal : (left == right) = true) :
    left.descriptor.unplaced = right.descriptor.unplaced := by
  refine Descriptor.unplaced_eq_of_equal ?_ ?_ (sound.madeOf leftMem) (sound.madeOf rightMem)
    (Carrier.beq_iff.1 equal).1
  · exact fun _ _ => sound.reached.populated.eq_of_name_eq
  · rintro first second ⟨payload, firstMem⟩ ⟨value, secondMem⟩ same
    exact congrArg Carrier.descriptor (sound.eq_of_address_eq _ firstMem _ secondMem same)

/-- Equal objects have the same canonical text, the same depth, and what their hashes are computed
from agrees, whatever hash of values agrees with the equality of values. -/
theorem seen_eq_of_beq (sound : session.IsSound) (leftMem : left ∈ session.objects)
    (rightMem : right ∈ session.objects) (equal : (left == right) = true) :
    left.descriptor.canonical = right.descriptor.canonical
      ∧ left.descriptor.depth = right.descriptor.depth
      ∧ left.fingerprint.1 = right.fingerprint.1
      ∧ ∀ {β : Type} (hash : Option α → β),
        (∀ value other, (value == other) = true → hash value = hash other) →
          left.fingerprint.2.map hash = right.fingerprint.2.map hash := by
  have same := sound.unplaced_eq_of_beq leftMem rightMem equal
  refine ⟨?_, ?_, ?_, fun hash agrees => ?_⟩
  · rw [← Descriptor.canonical_unplaced, same, Descriptor.canonical_unplaced]
  · rw [← Descriptor.depth_unplaced, same, Descriptor.depth_unplaced]
  · rw [Carrier.fingerprint, Carrier.fingerprint, ← Descriptor.fingerprint_unplaced, same,
      Descriptor.fingerprint_unplaced]
  · rw [Carrier.fingerprint, Carrier.fingerprint, Descriptor.identity_eq_of_unplaced_eq same]
    split
    · rfl
    · exact congrArg some (agrees _ _ (Carrier.beq_iff.1 equal).2)

/-- Objects without markers are equal when their canonical texts and their values are. -/
theorem beq_of_canonical_eq (sound : session.IsSound) (leftMem : left ∈ session.objects)
    (rightMem : right ∈ session.objects)
    (leftPlain : ∀ node ∈ left.descriptor.nodes, node.identity = false)
    (rightPlain : ∀ node ∈ right.descriptor.nodes, node.identity = false)
    (payloads : (left.payload == right.payload) = true)
    (same : left.descriptor.canonical = right.descriptor.canonical) : (left == right) = true := by
  refine Carrier.beq_iff.2 ⟨Descriptor.equal_of_canonical_eq ?_ ?_ same, payloads⟩
  · exact fun node inside => ⟨leftPlain node inside, sound.isName_name leftMem node inside⟩
  · exact fun node inside => ⟨rightPlain node inside, sound.isName_name rightMem node inside⟩

variable [EquivBEq α]

/-- Objects are equal when they are the same node, or no markers with raw types of the same name,
equal values and equal arguments. -/
theorem beq_iff (sound : session.IsSound) (leftMem : left ∈ session.objects)
    (rightMem : right ∈ session.objects) :
    (left == right) = true ↔ left.descriptor.sameNode right.descriptor = true
      ∨ (left.descriptor.identity = false ∧ right.descriptor.identity = false
        ∧ left.descriptor.raw.name = right.descriptor.raw.name
        ∧ (left.payload == right.payload) = true
        ∧ List.Forall₂ (fun left right => (left == right) = true) left.descriptor.arguments
          right.descriptor.arguments) := by
  rw [Carrier.beq_iff, Descriptor.beq_iff]
  constructor
  · rintro ⟨⟨-, -, same⟩ | ⟨plain, other, names, arguments⟩, payloads⟩
    · exact .inl same
    · exact .inr ⟨plain, other, names, payloads, arguments⟩
  · rintro (same | ⟨plain, other, names, payloads, arguments⟩)
    · rw [(sound.sameNode_iff leftMem rightMem).1 same, ← Descriptor.beq_iff]
      exact ⟨BEq.rfl, BEq.rfl⟩
    · exact ⟨.inr ⟨plain, other, names, arguments⟩, payloads⟩

/-- A marker is equal to itself only. -/
theorem beq_iff_of_identity (sound : session.IsSound) (leftMem : left ∈ session.objects)
    (rightMem : right ∈ session.objects) (marker : left.descriptor.identity = true) :
    (left == right) = true ↔ left = right := by
  rw [sound.beq_iff leftMem rightMem, sound.sameNode_iff leftMem rightMem, or_iff_left]
  rintro ⟨plain, -⟩
  rw [marker] at plain
  cases plain

end IsSound

/-! ## New markers -/

end Session

/-- Whether an operation yields nothing but new roots. The others can yield what was there before.
-/
def Operation.MakesRoots {α : Type} : Operation α → Prop
  | leaf _ => True
  | build _ _ => True
  | read _ _ => True
  | toIdentity carrier => carrier.descriptor.identity = false
  | withPayload _ _ => True
  | _ => False

namespace Session

variable {α : Type} {session : Session α}

/-- A new root carries the number of the operation that has made it. -/
theorem operation_of_makesRoots {operation : Operation α} (makes : operation.MakesRoots)
    (registry : Registry) (here : Address) :
    ∀ result ∈ operation.results registry here,
      result.descriptor.address.operation = here.operation := by
  cases operation with
  | leaf raw => exact List.forall_mem_singleton.2 rfl
  | build draft payload =>
    rw [Operation.results, Draft.buildWith]
    cases built : draft.build here with
    | error cause =>
      intro result mem
      cases mem
    | ok descriptor =>
      exact List.forall_mem_singleton.2 (congrArg Address.operation (Draft.address_of_build built))
  | read options text =>
    rw [Operation.results]
    cases read : Descriptor.readAll registry.scope options here text with
    | error cause =>
      intro result mem
      cases mem
    | ok descriptors =>
      have below : Descriptor.GrownBelow (Scan.Fresh fun _ => True) (fun _ => False) here 0
          descriptors := Descriptor.grownBelow_of_readAll (fun _ => trivial) read
      refine List.forall_mem_map.2 fun descriptor mem => ?_
      obtain ⟨offset, found⟩ := List.getElem?_of_mem mem
      -- nothing that was there before is attached to what is read
      cases below offset descriptor found with
      | old none => exact none.elim
      | new made grown => rfl
  | toIdentity carrier =>
    have plain : carrier.descriptor.identity = false := makes
    rw [Operation.results, Carrier.toIdentity, Descriptor.toIdentity, plain,
      if_neg Bool.false_ne_true]
    exact List.forall_mem_singleton.2 rfl
  | withPayload payload carrier => exact List.forall_mem_singleton.2 rfl
  | _ => exact makes.elim

/-- A marker that an operation has made differs from every object that was there before, stays, and
is equal to no other object that will ever be there. -/
theorem IsSound.beq_new_marker [BEq α] [EquivBEq α] (sound : session.IsSound)
    {operation : Operation α} (allowed : operation.IsAllowed session) {marker : Carrier (Option α)}
    (mem : marker ∈ made (operation.results session.registry session.here))
    (kind : marker.descriptor.identity = true)
    (stamp : marker.descriptor.address.operation = session.operations) {later : Session α}
    (ran : (session.after operation).Reaches later) :
    marker ∈ later.objects
      ∧ (∀ earlier ∈ session.objects, (marker == earlier) = false)
      ∧ ∀ other ∈ later.objects, (marker == other) = true ↔ marker = other := by
  have inside : marker ∈ (session.after operation).objects := by
    rw [objects_after]
    exact List.mem_append_right _ mem
  have there := ran.mem_objects inside
  have only : ∀ other ∈ later.objects, (marker == other) = true ↔ marker = other :=
    fun other otherMem =>
      ((sound.after allowed).run ran).beq_iff_of_identity there otherMem kind
  refine ⟨there, fun earlier known => ?_, only⟩
  have stays : earlier ∈ later.objects := by
    refine ran.mem_objects ?_
    rw [objects_after]
    exact List.mem_append_left _ known
  apply eq_false_of_ne_true
  intro equal
  cases (only earlier stays).1 equal
  exact absurd stamp (Nat.ne_of_lt (sound.operation_lt marker known))

/-! ## Equality -/

/-- **Equality over a whole session.** A session has gone on from its start over a registry that
calls lead to from the standard one. Among everything that can be reached from what it has yielded:

* equality is an equivalence relation;
* two objects are equal when they are the same node, or when neither is a marker and their raw types
  have the same name, their values are equal, and their arguments are equal one by one;
* the same node is the same object, and a marker is equal to no other object;
* equal objects have the same canonical text and the same depth, and what their hashes are computed
  from agrees, whatever hash of values agrees with the equality of values;
* objects without markers with equal values are equal when their canonical texts are the same.

Whatever operation comes next, each object that it yields was there before or carries the number of
the operation, and the objects that carry it have different addresses; new roots carry it. Each
marker that carries it differs from all objects before, and in every session that comes later it is
equal to itself only. -/
theorem equality_of_reaches [BEq α] [EquivBEq α] {registry : Registry}
    (reached : Registry.ReachableFrom Registry.standard registry)
    (ran : (start registry).Reaches session) :
    (∀ a ∈ session.objects, (a == a) = true)
    ∧ (∀ a ∈ session.objects, ∀ b ∈ session.objects, (a == b) = true → (b == a) = true)
    ∧ (∀ a ∈ session.objects, ∀ b ∈ session.objects, ∀ c ∈ session.objects,
      (a == b) = true → (b == c) = true → (a == c) = true)
    ∧ (∀ a ∈ session.objects, ∀ b ∈ session.objects,
      ((a == b) = true ↔ a.descriptor.sameNode b.descriptor = true
        ∨ (a.descriptor.identity = false ∧ b.descriptor.identity = false
          ∧ a.descriptor.raw.name = b.descriptor.raw.name ∧ (a.payload == b.payload) = true
          ∧ List.Forall₂ (fun left right => (left == right) = true) a.descriptor.arguments
            b.descriptor.arguments))
      ∧ (a.descriptor.sameNode b.descriptor = true ↔ a = b)
      ∧ (a.descriptor.identity = true → ((a == b) = true ↔ a = b))
      ∧ ((a == b) = true → a.descriptor.canonical = b.descriptor.canonical
        ∧ a.descriptor.depth = b.descriptor.depth
        ∧ a.fingerprint.1 = b.fingerprint.1
        ∧ ∀ {β : Type} (hash : Option α → β),
          (∀ value other, (value == other) = true → hash value = hash other) →
            a.fingerprint.2.map hash = b.fingerprint.2.map hash)
      ∧ ((∀ node ∈ a.descriptor.nodes, node.identity = false) →
        (∀ node ∈ b.descriptor.nodes, node.identity = false) →
        (a.payload == b.payload) = true →
        a.descriptor.canonical = b.descriptor.canonical → (a == b) = true))
    ∧ ∀ operation : Operation α, operation.IsAllowed session →
      let results := operation.results session.registry session.here
      (∀ object ∈ made results, object ∈ session.objects
        ∨ object.descriptor.address.operation = session.operations)
      ∧ (Descriptor.stamped session.operations ((made results).map Carrier.descriptor)).Nodup
      ∧ (operation.MakesRoots → ∀ result ∈ results,
        result.descriptor.address.operation = session.operations)
      ∧ ∀ marker ∈ made results, marker.descriptor.identity = true →
        marker.descriptor.address.operation = session.operations →
        ∀ later, (session.after operation).Reaches later →
          marker ∈ later.objects
          ∧ (∀ earlier ∈ session.objects, (marker == earlier) = false)
          ∧ ∀ other ∈ later.objects, (marker == other) = true ↔ marker = other := by
  have sound := (isSound_start reached).run ran
  refine ⟨fun _ _ => BEq.rfl, fun _ _ _ _ => BEq.symm, fun _ _ _ _ _ _ => BEq.trans, ?_, ?_⟩
  · intro a aMem b bMem
    exact ⟨sound.beq_iff aMem bMem, sound.sameNode_iff aMem bMem,
      sound.beq_iff_of_identity aMem bMem, sound.seen_eq_of_beq aMem bMem,
      sound.beq_of_canonical_eq aMem bMem⟩
  · intro operation allowed results
    have yields := sound.yields_results allowed
    refine ⟨?_, yields.nodup sound, fun makes => operation_of_makesRoots makes _ _, ?_⟩
    · intro object mem
      exact (yields.object_cases sound object mem).imp_right And.left
    · intro marker mem kind stamp later after
      exact sound.beq_new_marker allowed mem kind stamp after

/-- A session that makes a descriptor of a raw type, and a marker of it. -/
def withMarker (registry : Registry) (raw : RawType) : Session α :=
  ((start registry).after (.leaf raw)).after (.toIdentity ⟨.leaf ⟨0, []⟩ raw, none⟩)

/-- What the session yields. -/
theorem yielded_withMarker (registry : Registry) (raw : RawType) :
    (withMarker registry raw : Session α).yielded
      = [⟨.leaf ⟨0, []⟩ raw, none⟩, ⟨⟨⟨1, []⟩, raw, [], true⟩, none⟩] := rfl

/-- Both operations are allowed for a raw type of the registry. -/
theorem reaches_withMarker {registry : Registry} {raw : RawType} (handle : registry.IsHandle raw) :
    (start registry).Reaches (withMarker registry raw : Session α) := by
  have known : (⟨.leaf ⟨0, []⟩ raw, none⟩ : Carrier (Option α))
      ∈ ((start registry).after (.leaf raw)).yielded := List.mem_cons_self
  exact .tail (.single (.operate (.leaf raw) handle))
    (.operate (.toIdentity ⟨.leaf ⟨0, []⟩ raw, none⟩) (mem_objects_of_mem_yielded known))

/-- In a session over the standard registry a marker is made of a descriptor. The two are not equal,
although they have the same canonical text. -/
theorem equality_of_reaches_marker :
    let int := RawType.ofDeclaration (.primitive .int)
    let leaf : Carrier (Option Nat) := ⟨.leaf ⟨0, []⟩ int, none⟩
    let marker : Carrier (Option Nat) := ⟨⟨⟨1, []⟩, int, [], true⟩, none⟩
    let session := withMarker Registry.standard int
    Registry.ReachableFrom Registry.standard Registry.standard
      ∧ (start Registry.standard).Reaches session ∧ session.yielded = [leaf, marker]
      ∧ (marker == marker) = true ∧ (marker == leaf) = false
      ∧ marker.descriptor.canonical = leaf.descriptor.canonical := by
  intro int leaf marker session
  have reached : Registry.ReachableFrom Registry.standard Registry.standard := .start
  have ran : (start Registry.standard).Reaches session :=
    reaches_withMarker (Registry.populated_standard.isHandle_primitive .int)
  have leafMem : leaf ∈ session.objects := mem_objects_of_mem_yielded List.mem_cons_self
  have markerMem : marker ∈ session.objects :=
    mem_objects_of_mem_yielded (List.mem_cons_of_mem _ List.mem_cons_self)
  obtain ⟨refl, -, -, pairs, -⟩ := equality_of_reaches reached ran
  obtain ⟨-, -, only, -⟩ := pairs marker markerMem leaf leafMem
  refine ⟨reached, ran, yielded_withMarker _ _, refl marker markerMem, ?_, ?_⟩
  · apply eq_false_of_ne_true
    intro equal
    have kinds := congrArg (fun carrier => carrier.descriptor.identity) ((only rfl).1 equal)
    cases kinds
  · rw [Descriptor.canonical, Descriptor.canonical, Descriptor.render, Descriptor.render]
    rfl

end Session

end GenericTypes
