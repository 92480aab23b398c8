import Mathlib.Logic.Relation
import GenericTypes.Descriptor.Equality
import GenericTypes.Proofs.Descriptor.ReaderNodes
import GenericTypes.Proofs.Descriptor.Search

/-! # Sessions

A session is a run of operations that make descriptors, over a registry that may change through
calls in between. Everything that was yielded stays, and later operations may use it and what stands
inside it. `yields_results` says once what an operation can yield: objects that were there before,
one new node with a value, or several descriptors of new nodes. The invariant follows from it:
objects are over declared types, and the address of an object says which object it is, so that an
object never changes. -/

namespace GenericTypes

/-! ## What a session does -/

/-- What can be reached from a carrier: the carrier itself, and the nodes of its arguments, which
carry nothing. -/
def Carrier.objects {α : Type} (carrier : Carrier (Option α)) : List (Carrier (Option α)) :=
  carrier :: (carrier.descriptor.arguments.flatMap Descriptor.nodes).map fun node => ⟨node, none⟩

/-- A session: a registry, the number of operations so far, and what they have yielded. -/
structure Session (α : Type) where
  /-- The registry. -/
  registry : Registry
  /-- The number of operations so far, which is the number of the next one. -/
  operations : Nat := 0
  /-- What has been yielded, without a value or with one. -/
  yielded : List (Carrier (Option α)) := []

/-- An operation that makes descriptors. -/
inductive Operation (α : Type)
  /-- A raw type without arguments. -/
  | leaf (raw : RawType)
  /-- Building a draft, without a value or with one. -/
  | build (draft : Draft) (payload : Option α)
  /-- Reading a text. -/
  | read (options : ReadOptions) (text : String)
  /-- Converting a use. -/
  | convert (bindings : Bindings) (use : TypeUse)
  /-- The supertypes of a descriptor. -/
  | supertypes (carrier : Carrier (Option α))
  /-- A marker with the same content. -/
  | toIdentity (carrier : Carrier (Option α))
  /-- The same content with another value, or without its value. -/
  | withPayload (payload : Option α) (carrier : Carrier (Option α))
  /-- A copy. -/
  | copy (carrier : Carrier (Option α))
  /-- An argument. -/
  | argument (carrier : Carrier (Option α)) (index : Nat)

namespace Session

variable {α : Type}

/-- A session before the first operation. -/
def start (registry : Registry) : Session α :=
  { registry }

/-- What can be reached from anything that has been yielded. -/
def objects (session : Session α) : List (Carrier (Option α)) :=
  session.yielded.flatMap Carrier.objects

/-- Whether a descriptor can be reached that carries nothing. -/
def Holds (session : Session α) (descriptor : Descriptor) : Prop :=
  ⟨descriptor, none⟩ ∈ session.objects

/-- The address of the next operation. -/
def here (session : Session α) : Address :=
  { operation := session.operations }

end Session

namespace Operation

variable {α : Type}

/-- Descriptors that carry nothing, if there are any. -/
def plain (descriptors : Except DescriptorError (List Descriptor)) : List (Carrier (Option α)) :=
  match descriptors with
  | .ok descriptors => descriptors.map fun descriptor => ⟨descriptor, none⟩
  | .error _ => []

/-- What an operation yields at an address. An operation that fails yields nothing. -/
def results (registry : Registry) (here : Address) : Operation α → List (Carrier (Option α))
  | leaf raw => [⟨.leaf here raw, none⟩]
  | build draft payload => (draft.buildWith here payload).toOption.toList
  | read options text => plain (Descriptor.readAll registry.scope options here text)
  | convert bindings use =>
    plain ((Conversion.convert ⟨registry.scope, bindings⟩ here use).map ([·]))
  | supertypes carrier => plain (carrier.descriptor.genericSupertypes registry.scope here)
  | toIdentity carrier => [carrier.toIdentity here]
  | withPayload payload carrier => [carrier.withPayload here payload]
  | copy carrier => [carrier]
  | argument carrier index =>
    (carrier.descriptor.argument? index).toList.map fun argument => ⟨argument, none⟩

/-- Whether an operation uses raw types of the registry and objects of the session only. -/
def IsAllowed (session : Session α) : Operation α → Prop
  | leaf raw => session.registry.IsHandle raw
  | build draft _ => draft.DrawsFrom session.registry.IsHandle session.Holds
  | read _ _ => True
  | convert bindings use =>
    (∀ name descriptor, bindings.find? name = some descriptor → session.Holds descriptor)
      ∧ ∀ part ∈ use.parts, ∀ raw, part.raw? = some raw → session.registry.IsHandle raw
  | supertypes carrier => carrier ∈ session.objects
  | toIdentity carrier => carrier ∈ session.objects
  | withPayload _ carrier => carrier ∈ session.objects
  | copy carrier => carrier ∈ session.objects
  | argument carrier _ => carrier ∈ session.objects

end Operation

namespace Session

variable {α : Type}

/-- The session after an operation. -/
def after (session : Session α) (operation : Operation α) : Session α :=
  { session with
    operations := session.operations + 1
    yielded := session.yielded ++ operation.results session.registry session.here }

/-- What can happen next in a session. -/
inductive Step : Session α → Session α → Prop
  /-- An operation. -/
  | operate {session : Session α} (operation : Operation α)
      (allowed : operation.IsAllowed session) : Step session (session.after operation)
  /-- Calls to the registry. -/
  | call {session : Session α} {registry : Registry}
      (reached : Registry.ReachableFrom session.registry registry) :
      Step session { session with registry }

/-- Whether a session can go on to another one. -/
def Reaches : Session α → Session α → Prop :=
  Relation.ReflTransGen Step

end Session

/-! ## Objects -/

namespace Carrier

variable {α : Type} {inner middle outer : Carrier (Option α)}

/-- An object of a carrier is the carrier or a node of an argument. -/
theorem mem_objects_iff {object carrier : Carrier (Option α)} :
    object ∈ carrier.objects ↔ object = carrier
      ∨ ∃ argument ∈ carrier.descriptor.arguments, ∃ node ∈ argument.nodes,
        object = ⟨node, none⟩ := by
  rw [objects, List.mem_cons, List.mem_map]
  constructor
  · rintro (same | ⟨node, inside, rfl⟩)
    · exact .inl same
    · obtain ⟨argument, mem, inside⟩ := List.mem_flatMap.1 inside
      exact .inr ⟨argument, mem, node, inside, rfl⟩
  · rintro (same | ⟨argument, mem, node, inside, rfl⟩)
    · exact .inl same
    · exact .inr ⟨node, List.mem_flatMap.2 ⟨argument, mem, inside⟩, rfl⟩

/-- A carrier is one of its objects. -/
theorem self_mem_objects (carrier : Carrier (Option α)) : carrier ∈ carrier.objects :=
  List.mem_cons_self

/-- The objects of an object are objects. -/
theorem mem_objects_trans (first : inner ∈ middle.objects) (second : middle ∈ outer.objects) :
    inner ∈ outer.objects := by
  rcases mem_objects_iff.1 second with rfl | ⟨argument, mem, node, inside, rfl⟩
  · exact first
  · rcases mem_objects_iff.1 first with rfl | ⟨other, member, leaf, below, rfl⟩
    · exact second
    · have within := Descriptor.mem_nodes_trans below
        (Descriptor.mem_nodes_trans (Descriptor.mem_nodes_of_mem_arguments member) inside)
      exact mem_objects_iff.2 (.inr ⟨argument, mem, leaf, within, rfl⟩)

/-- The objects of a descriptor without a value are its nodes. -/
theorem objects_plain (descriptor : Descriptor) :
    objects (α := α) ⟨descriptor, none⟩ = descriptor.nodes.map fun node => ⟨node, none⟩ := by
  rw [objects, Descriptor.nodes, List.map_cons]

/-- The objects of a carrier stand where the nodes of its descriptor stand. -/
theorem map_descriptor_objects (carrier : Carrier (Option α)) :
    carrier.objects.map descriptor = carrier.descriptor.nodes := by
  rw [objects, List.map_cons, List.map_map, Descriptor.nodes]
  exact congrArg _ (List.map_id _)

end Carrier

namespace Session

variable {α : Type} {session : Session α}

/-- The objects of an object of a session are objects of the session. -/
theorem mem_objects_of_mem_objects {inner outer : Carrier (Option α)}
    (first : inner ∈ outer.objects) (second : outer ∈ session.objects) :
    inner ∈ session.objects := by
  obtain ⟨carrier, mem, inside⟩ := List.mem_flatMap.1 second
  exact List.mem_flatMap.2 ⟨carrier, mem, Carrier.mem_objects_trans first inside⟩

/-- What has been yielded is an object. -/
theorem mem_objects_of_mem_yielded {carrier : Carrier (Option α)}
    (mem : carrier ∈ session.yielded) : carrier ∈ session.objects :=
  List.mem_flatMap.2 ⟨carrier, mem, carrier.self_mem_objects⟩

/-- The arguments of an object are held. -/
theorem holds_of_mem_arguments {carrier : Carrier (Option α)} (mem : carrier ∈ session.objects)
    {argument : Descriptor} (inside : argument ∈ carrier.descriptor.arguments) :
    session.Holds argument :=
  mem_objects_of_mem_objects (Carrier.mem_objects_iff.2
    (.inr ⟨argument, inside, argument, argument.self_mem_nodes, rfl⟩)) mem

/-- The nodes of what is held are held. -/
theorem Holds.of_mem_nodes {descriptor node : Descriptor} (holds : session.Holds descriptor)
    (inside : node ∈ descriptor.nodes) : session.Holds node := by
  have object : (⟨node, none⟩ : Carrier (Option α)) ∈ Carrier.objects ⟨descriptor, none⟩ := by
    rw [Carrier.objects_plain]
    exact List.mem_map_of_mem inside
  exact mem_objects_of_mem_objects object holds

/-! ## The invariant -/

/-- Whether a session is over a registry that calls lead to from the standard one, and its objects
are over declared types, have been made by operations so far, and are told apart by their
addresses. -/
structure IsSound (session : Session α) : Prop where
  /-- Calls lead to the registry. -/
  reached : Registry.ReachableFrom Registry.standard session.registry
  /-- The elements of all raw types are declared. -/
  declared : ∀ object ∈ session.objects,
    object.descriptor.raw.element ∈ session.registry.declared
  /-- The operations have been. -/
  operation_lt : ∀ object ∈ session.objects,
    object.descriptor.address.operation < session.operations
  /-- Objects at the same address are the same. -/
  eq_of_address_eq : ∀ left ∈ session.objects, ∀ right ∈ session.objects,
    left.descriptor.address = right.descriptor.address → left = right

/-- The new nodes of an operation. -/
abbrev Fresh (session : Session α) (raw : RawType) (_ : Bool) : Prop :=
  raw.element ∈ session.registry.declared

/-- What an operation can yield. -/
inductive Yields (session : Session α) : List (Carrier (Option α)) → Prop
  /-- Objects that were there before. -/
  | old {results : List (Carrier (Option α))}
      (known : ∀ result ∈ results, result ∈ session.objects) : Yields session results
  /-- A new node with a value, or without. -/
  | node {descriptor : Descriptor} (place : descriptor.address = session.here)
      (grown : descriptor.GrownAt session.Fresh session.Holds session.here) (payload : Option α) :
      Yields session [⟨descriptor, payload⟩]
  /-- Several descriptors of new nodes and of what was there before. -/
  | nodes {descriptors : List Descriptor}
      (grown : Descriptor.GrownBelow session.Fresh session.Holds session.here 0 descriptors) :
      Yields session (descriptors.map fun descriptor => ⟨descriptor, none⟩)

namespace IsSound

/-- The raw types of the registry are those with a declared element. -/
theorem isHandle_iff (sound : session.IsSound) {raw : RawType} :
    session.registry.IsHandle raw ↔ raw.element ∈ session.registry.declared :=
  sound.reached.populated.isHandle_iff

/-- A new node with the arguments of an object. -/
theorem yields_copyTo (sound : session.IsSound) {carrier : Carrier (Option α)}
    (mem : carrier ∈ session.objects) (identity : Bool) (payload : Option α) :
    session.Yields
      [⟨⟨session.here, carrier.descriptor.raw, carrier.descriptor.arguments, identity⟩, payload⟩] :=
  .node rfl (.new (sound.declared carrier mem) fun _ _ found =>
    .old (holds_of_mem_arguments mem (List.mem_of_getElem? found))) payload

/-- A conversion attaches what is held. -/
theorem attaches (sound : session.IsSound) {bindings : Bindings}
    (bound : ∀ name descriptor, bindings.find? name = some descriptor →
      session.Holds descriptor) :
    Conversion.Attaches (fun raw => raw.element ∈ session.registry.declared) session.Holds
      ⟨session.registry.scope, bindings⟩ where
  answer := sound.reached.populated.element_mem_of_find
  top := sound.reached.populated.top_mem
  bound := bound _ _
  argument := fun holds mem => holds.of_mem_nodes (Descriptor.mem_nodes_of_mem_arguments mem)

/-- An operation that is allowed yields objects that were there before, one new node, or several
descriptors of new nodes. -/
theorem yields_results (sound : session.IsSound) {operation : Operation α}
    (allowed : operation.IsAllowed session) :
    session.Yields (operation.results session.registry session.here) := by
  cases operation with
  | leaf raw =>
    exact .node rfl (Descriptor.grownBelow_nil.grownAt (sound.isHandle_iff.1 allowed)) none
  | build draft payload =>
    rw [Operation.results, Draft.buildWith]
    cases built : draft.build session.here with
    | error cause => exact .old nofun
    | ok descriptor =>
      obtain ⟨raw, arguments, rfl, holds, below⟩ := Draft.exists_of_build allowed built
      exact .node rfl ((below.grownAt holds).mono (fun _ _ => sound.isHandle_iff.1)
        fun _ known => known) payload
  | read options text =>
    rw [Operation.results]
    cases read : Descriptor.readAll session.registry.scope options session.here text with
    | error cause => exact .old nofun
    | ok descriptors =>
      have grown :=
        Descriptor.grownBelow_of_readAll sound.reached.populated.element_mem_of_find read
      exact .nodes (grown.mono (fun _ _ declared => declared) fun _ none => none.elim)
  | convert bindings use =>
    obtain ⟨bound, known⟩ := allowed
    rw [Operation.results]
    cases converted : Conversion.convert ⟨session.registry.scope, bindings⟩ session.here use with
    | error cause => exact .old nofun
    | ok descriptor =>
      have grown := (sound.attaches bound).grownAt_of_resolve
        (fun part inside raw base => sound.isHandle_iff.1 (known part inside raw base))
        (Conversion.resolve_of_convert converted)
      -- a type parameter alone is converted to what it stands for
      cases grown with
      | old holds => exact .old (List.forall_mem_singleton.2 holds)
      | new made grown =>
        exact .node rfl ((Descriptor.GrownAt.new made grown).mono (fun _ _ made => made.1)
          fun _ known => known) none
  | supertypes carrier =>
    rw [Operation.results]
    cases converted : carrier.descriptor.genericSupertypes session.registry.scope session.here with
    | error cause => exact .old nofun
    | ok descriptors =>
      have attaches := sound.attaches fun name argument stands =>
        holds_of_mem_arguments allowed (Descriptor.mem_arguments_of_find?_bindings stands)
      have declared := sound.reached.isReachable.resolved.element_mem_of_supertypes
        (sound.declared carrier allowed)
      have grown := attaches.grownBelow_of_convertAll (List.forall_mem_map.2 declared) converted
      exact .nodes (grown.mono (fun _ _ made => made.1) fun _ known => known)
  | toIdentity carrier =>
    rw [Operation.results, Carrier.toIdentity, Descriptor.toIdentity]
    split
    · exact .old (List.forall_mem_singleton.2 allowed)
    · exact sound.yields_copyTo allowed true carrier.payload
  | withPayload payload carrier => exact sound.yields_copyTo allowed _ payload
  | copy carrier => exact .old (List.forall_mem_singleton.2 allowed)
  | argument carrier index =>
    refine .old (List.forall_mem_map.2 fun argument found => ?_)
    have found := Option.mem_toList.1 found
    exact holds_of_mem_arguments allowed (List.mem_of_getElem? found)

/-- The nodes of what is held were made by earlier operations. -/
theorem operation_ne (sound : session.IsSound) :
    ∀ known, session.Holds known → ∀ node ∈ known.nodes,
      node.address.operation ≠ session.operations := by
  intro known holds node inside
  have earlier := sound.operation_lt _ (holds.of_mem_nodes inside)
  exact Nat.ne_of_lt earlier

end IsSound

/-- The objects of what an operation yields. -/
abbrev made (results : List (Carrier (Option α))) : List (Carrier (Option α)) :=
  results.flatMap Carrier.objects

/-- A node of something that an operation makes is held already, or the operation has made it. -/
theorem holds_or_new {place : Address} (same : place.operation = session.operations)
    {descriptor : Descriptor} (grown : descriptor.GrownAt session.Fresh session.Holds place) :
    ∀ node ∈ descriptor.nodes, session.Holds node
      ∨ node.address.operation = session.operations
        ∧ node.raw.element ∈ session.registry.declared := by
  intro node inside
  rcases grown.node_cases node inside with ⟨known, holds, member⟩ | ⟨fresh, stamp, -⟩
  · exact .inl (holds.of_mem_nodes member)
  · exact .inr ⟨stamp.trans same, fresh⟩

namespace Yields

variable {results : List (Carrier (Option α))}

/-- An object that an operation yields was there before, or the operation has made it. -/
theorem object_cases (sound : session.IsSound) (yields : session.Yields results) :
    ∀ object ∈ made results, object ∈ session.objects
      ∨ object.descriptor.address.operation = session.operations
        ∧ object.descriptor.raw.element ∈ session.registry.declared := by
  intro object mem
  obtain ⟨result, inResults, inside⟩ := List.mem_flatMap.1 mem
  cases yields with
  | old known => exact .inl (mem_objects_of_mem_objects inside (known result inResults))
  | @node descriptor place grown payload =>
    cases List.mem_singleton.1 inResults
    have nodes := holds_or_new rfl grown
    rcases Carrier.mem_objects_iff.1 inside with rfl | ⟨argument, member, node, below, rfl⟩
    · -- the root is new because it stands at the address of the operation
      have stamp := congrArg Address.operation place
      rcases nodes descriptor descriptor.self_mem_nodes with holds | new
      · have declared := sound.declared _ holds
        exact .inr ⟨stamp, declared⟩
      · exact .inr new
    · exact nodes node (Descriptor.mem_nodes_iff.2 (.inr ⟨argument, member, below⟩))
  | nodes grown =>
    obtain ⟨descriptor, member, rfl⟩ := List.mem_map.1 inResults
    rw [Carrier.objects_plain] at inside
    obtain ⟨node, below, rfl⟩ := List.mem_map.1 inside
    obtain ⟨offset, found⟩ := List.getElem?_of_mem member
    exact holds_or_new rfl (grown offset descriptor found) node below

/-- The objects that an operation has made are told apart by their addresses. -/
theorem nodup (sound : session.IsSound) (yields : session.Yields results) :
    (Descriptor.stamped session.operations ((made results).map Carrier.descriptor)).Nodup := by
  have nodes : (made results).map Carrier.descriptor
      = (results.map Carrier.descriptor).flatMap Descriptor.nodes := by
    rw [List.map_flatMap, List.flatMap_map]
    exact congrArg (List.flatMap · results) (funext Carrier.map_descriptor_objects)
  rw [nodes]
  cases yields with
  | old known =>
    rw [← nodes, Descriptor.stamped_eq_nil]
    · exact List.nodup_nil
    · refine List.forall_mem_map.2 fun object mem => ?_
      obtain ⟨result, inResults, inside⟩ := List.mem_flatMap.1 mem
      have earlier := sound.operation_lt object
        (mem_objects_of_mem_objects inside (known result inResults))
      exact Nat.ne_of_lt earlier
  | node place grown payload =>
    rw [List.map_singleton, List.flatMap_singleton]
    exact grown.nodup_stamped sound.operation_ne
  | @nodes descriptors grown =>
    have same : (descriptors.map fun descriptor => (⟨descriptor, none⟩ : Carrier (Option α))).map
        Carrier.descriptor = descriptors := by
      rw [List.map_map]
      exact List.map_id descriptors
    rw [same]
    exact grown.nodup_stamped sound.operation_ne

end Yields

/-- Objects that an operation has made are the same if they are at the same address and the
addresses of all of them differ. -/
theorem eq_of_nodup_stamped {operation : Nat} {objects : List (Carrier (Option α))}
    (nodup : (Descriptor.stamped operation (objects.map Carrier.descriptor)).Nodup)
    {left right : Carrier (Option α)} (leftMem : left ∈ objects) (rightMem : right ∈ objects)
    (stamp : left.descriptor.address.operation = operation)
    (same : left.descriptor.address = right.descriptor.address) : left = right := by
  rw [Descriptor.stamped, List.map_map, List.filter_map] at nodup
  have kept : ∀ object ∈ objects, object.descriptor.address.operation = operation →
      object ∈ objects.filter ((fun address => decide (address.operation = operation))
        ∘ (Descriptor.address ∘ Carrier.descriptor)) :=
    fun object mem stamp => List.mem_filter.2 ⟨mem, decide_eq_true stamp⟩
  exact List.inj_on_of_nodup_map nodup (kept left leftMem stamp)
    (kept right rightMem (same ▸ stamp)) same

/-! ## Whole sessions -/

/-- The objects after an operation are those that were there before and those that it yields. -/
theorem objects_after (session : Session α) (operation : Operation α) :
    (session.after operation).objects
      = session.objects ++ made (operation.results session.registry session.here) :=
  List.flatMap_append

/-- A session before the first operation is sound. -/
theorem isSound_start {registry : Registry}
    (reached : Registry.ReachableFrom Registry.standard registry) :
    (start registry : Session α).IsSound :=
  ⟨reached, nofun, nofun, nofun⟩

namespace IsSound

/-- An operation keeps a session sound. -/
theorem after (sound : session.IsSound) {operation : Operation α}
    (allowed : operation.IsAllowed session) : (session.after operation).IsSound := by
  have yields := sound.yields_results allowed
  have cases : ∀ object ∈ (session.after operation).objects, object ∈ session.objects
      ∨ object ∈ made (operation.results session.registry session.here)
        ∧ object.descriptor.address.operation = session.operations
        ∧ object.descriptor.raw.element ∈ session.registry.declared := by
    intro object mem
    rw [objects_after] at mem
    rcases List.mem_append.1 mem with known | inside
    · exact .inl known
    · rcases yields.object_cases sound object inside with known | new
      · exact .inl known
      · exact .inr ⟨inside, new⟩
  refine ⟨sound.reached, ?_, ?_, ?_⟩
  · intro object mem
    rcases cases object mem with known | ⟨-, -, declared⟩
    · exact sound.declared object known
    · exact declared
  · intro object mem
    rcases cases object mem with known | ⟨-, stamp, -⟩
    · exact Nat.lt_succ_of_lt (sound.operation_lt object known)
    · exact Nat.lt_succ_of_le (Nat.le_of_eq stamp)
  · intro left leftMem right rightMem same
    have stamps := congrArg Address.operation same
    rcases cases left leftMem with leftKnown | ⟨leftMade, leftStamp, -⟩
    · rcases cases right rightMem with rightKnown | ⟨-, rightStamp, -⟩
      · exact sound.eq_of_address_eq left leftKnown right rightKnown same
      · -- an address of an earlier operation is no address of this one
        have earlier := sound.operation_lt left leftKnown
        omega
    · rcases cases right rightMem with rightKnown | ⟨rightMade, -, -⟩
      · have earlier := sound.operation_lt right rightKnown
        omega
      · exact eq_of_nodup_stamped (yields.nodup sound) leftMade rightMade leftStamp same

/-- Calls to the registry keep a session sound. -/
theorem call (sound : session.IsSound) {registry : Registry}
    (reached : Registry.ReachableFrom session.registry registry) :
    ({ session with registry } : Session α).IsSound :=
  ⟨sound.reached.trans reached, fun object mem => reached.mem_declared (sound.declared object mem),
    sound.operation_lt, sound.eq_of_address_eq⟩

/-- What can happen next keeps a session sound. -/
theorem step (sound : session.IsSound) {later : Session α} (step : session.Step later) :
    later.IsSound := by
  cases step with
  | operate operation allowed => exact sound.after allowed
  | call reached => exact sound.call reached

/-- A sound session goes on to sound sessions. -/
theorem run (sound : session.IsSound) {later : Session α} (ran : session.Reaches later) :
    later.IsSound := by
  induction ran with
  | refl => exact sound
  | tail _ step ih => exact ih.step step

end IsSound

/-- Objects stay. -/
theorem Reaches.mem_objects {later : Session α} (ran : session.Reaches later)
    {object : Carrier (Option α)} (mem : object ∈ session.objects) : object ∈ later.objects := by
  induction ran with
  | refl => exact mem
  | tail _ step ih =>
    cases step with
    | operate operation allowed =>
      rw [objects_after]
      exact List.mem_append_left _ ih
    | call reached => exact ih

end Session

end GenericTypes
