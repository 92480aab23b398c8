import Mathlib.Data.List.Nodup
import GenericTypes.Proofs.Descriptor.Build
import GenericTypes.Proofs.Descriptor.Places

/-! # New nodes and old ones

A descriptor is made of new nodes, down to descriptors that were there before and are attached as
they are. A new node is made at the address that says where it stands: the first one where the
operation is, and the arguments of a new node one step further on. So the new nodes of an operation
are told apart by their addresses, and none of them can be taken for a node of another operation. -/

namespace GenericTypes

namespace Descriptor

/-! ## Nodes -/

/-- A descriptor is one of its nodes. -/
theorem self_mem_nodes (descriptor : Descriptor) : descriptor ∈ descriptor.nodes := by
  rw [nodes]
  exact List.mem_cons_self

/-- A node is the descriptor itself or a node of an argument. -/
theorem mem_nodes_iff {node descriptor : Descriptor} :
    node ∈ descriptor.nodes ↔
      node = descriptor ∨ ∃ argument ∈ descriptor.arguments, node ∈ argument.nodes := by
  rw [nodes, List.mem_cons, List.mem_flatMap]

/-- The nodes of a node are nodes. -/
theorem mem_nodes_trans {inner middle outer : Descriptor} (first : inner ∈ middle.nodes)
    (second : middle ∈ outer.nodes) : inner ∈ outer.nodes := by
  induction outer using inductionOnArguments with
  | step outer ih =>
    rcases mem_nodes_iff.1 second with rfl | ⟨argument, mem, inside⟩
    · exact first
    · exact mem_nodes_iff.2 (.inr ⟨argument, mem, ih argument mem inside⟩)

/-- The arguments of a node are nodes. -/
theorem mem_nodes_of_mem_arguments {argument descriptor : Descriptor}
    (mem : argument ∈ descriptor.arguments) : argument ∈ descriptor.nodes :=
  mem_nodes_iff.2 (.inr ⟨argument, mem, argument.self_mem_nodes⟩)

/-! ## Growth -/

/-- Whether a descriptor is made at an address of new nodes and old descriptors. -/
inductive GrownAt (fresh : RawType → Bool → Prop) (old : Descriptor → Prop) :
    Address → Descriptor → Prop
  /-- An old descriptor stays where it was made. -/
  | old {here : Address} {descriptor : Descriptor} (known : old descriptor) :
      GrownAt fresh old here descriptor
  /-- A new node is made here, and its arguments one step further on. -/
  | new {here : Address} {raw : RawType} {arguments : List Descriptor} {identity : Bool}
      (made : fresh raw identity)
      (grown : ∀ (index : Nat) (argument : Descriptor), arguments[index]? = some argument →
        GrownAt fresh old (here.child index) argument) :
      GrownAt fresh old here ⟨here, raw, arguments, identity⟩

/-- Whether descriptors are made one step further on, the first of them at the given index. -/
def GrownBelow (fresh : RawType → Bool → Prop) (old : Descriptor → Prop) (here : Address)
    (index : Nat) (descriptors : List Descriptor) : Prop :=
  ∀ (offset : Nat) (descriptor : Descriptor), descriptors[offset]? = some descriptor →
    GrownAt fresh old (here.child (index + offset)) descriptor

variable {fresh : RawType → Bool → Prop} {old : Descriptor → Prop} {here : Address}
  {descriptor : Descriptor} {descriptors : List Descriptor} {index : Nat}

/-- No descriptors are made below any address. -/
theorem grownBelow_nil : GrownBelow fresh old here index [] :=
  nofun

/-- Descriptors are made one after the other. -/
theorem GrownAt.cons (first : descriptor.GrownAt fresh old (here.child index))
    (rest : GrownBelow fresh old here (index + 1) descriptors) :
    GrownBelow fresh old here index (descriptor :: descriptors) := by
  intro offset other found
  cases offset with
  | zero =>
    cases found
    exact first
  | succ offset =>
    rw [← Nat.add_assoc, Nat.add_right_comm]
    exact rest offset other found

/-- One more descriptor is made behind the others. -/
theorem GrownBelow.concat (grown : GrownBelow fresh old here index descriptors)
    (last : descriptor.GrownAt fresh old (here.child (index + descriptors.length))) :
    GrownBelow fresh old here index (descriptors ++ [descriptor]) := by
  intro offset other found
  by_cases inside : offset < descriptors.length
  · rw [List.getElem?_append_left inside] at found
    exact grown offset other found
  · have behind := Nat.not_lt.1 inside
    rw [List.getElem?_append_right behind, List.getElem?_singleton] at found
    split at found
    · obtain rfl : offset = descriptors.length := by omega
      cases found
      exact last
    · cases found

/-- A node with arguments that are made below it. -/
theorem GrownBelow.grownAt (grown : GrownBelow fresh old here 0 descriptors) {raw : RawType}
    {identity : Bool} (made : fresh raw identity) :
    GrownAt fresh old here ⟨here, raw, descriptors, identity⟩ := by
  refine .new made fun index argument found => ?_
  have inside := grown index argument found
  rwa [Nat.zero_add] at inside

/-- What is made of new nodes of one kind and old descriptors is made of new nodes of any kind that
includes it, and of anything that the old descriptors are made of. -/
theorem GrownAt.mono {other : RawType → Bool → Prop} {older : Descriptor → Prop}
    (kinds : ∀ raw identity, fresh raw identity → other raw identity)
    (known : ∀ descriptor, old descriptor → older descriptor)
    (grown : descriptor.GrownAt fresh old here) : descriptor.GrownAt other older here := by
  induction grown with
  | old holds => exact .old (known _ holds)
  | new made grown ih => exact .new (kinds _ _ made) ih

/-- The same for several descriptors. -/
theorem GrownBelow.mono {other : RawType → Bool → Prop} {older : Descriptor → Prop}
    (kinds : ∀ raw identity, fresh raw identity → other raw identity)
    (known : ∀ descriptor, old descriptor → older descriptor)
    (grown : GrownBelow fresh old here index descriptors) :
    GrownBelow other older here index descriptors :=
  fun offset descriptor found => (grown offset descriptor found).mono kinds known

/-- A node belongs to an old descriptor, or it is new: then it has been made by the operation,
further on than the address. -/
theorem GrownAt.node_cases (grown : descriptor.GrownAt fresh old here) :
    ∀ node ∈ descriptor.nodes,
      (∃ known, old known ∧ node ∈ known.nodes)
        ∨ (fresh node.raw node.identity ∧ node.address.operation = here.operation
          ∧ here.path <:+ node.address.path) := by
  induction grown with
  | old holds => exact fun node mem => .inl ⟨_, holds, mem⟩
  | new made grown ih =>
    intro node mem
    rcases mem_nodes_iff.1 mem with rfl | ⟨argument, member, inside⟩
    · exact .inr ⟨made, rfl, List.suffix_refl _⟩
    · obtain ⟨index, found⟩ := List.getElem?_of_mem member
      rcases ih index argument found node inside with known | ⟨made, stamp, suffix⟩
      · exact .inl known
      · exact .inr ⟨made, stamp, (List.suffix_cons index _).trans suffix⟩

/-- What is made of new nodes that are no markers is made of their raw types and of what the old
descriptors are made of. -/
theorem GrownAt.madeOf {raws : RawType → Prop} {markers : Descriptor → Prop}
    (grown : descriptor.GrownAt (fun raw identity => raws raw ∧ identity = false)
      (MadeOf raws markers) here) : descriptor.MadeOf raws markers := by
  intro node mem
  rcases grown.node_cases node mem with ⟨known, made, inside⟩ | ⟨⟨holds, plain⟩, -, -⟩
  · exact made node inside
  · refine ⟨holds, fun marker => ?_⟩
    rw [plain] at marker
    cases marker

/-! ## Addresses of new nodes -/

/-- The addresses of the nodes that an operation has made. -/
def stamped (operation : Nat) (nodes : List Descriptor) : List Address :=
  (nodes.map address).filter fun address => address.operation = operation

/-- An address of a node of an operation. -/
theorem mem_stamped_iff {operation : Nat} {nodes : List Descriptor} {address : Address} :
    address ∈ stamped operation nodes ↔
      (∃ node ∈ nodes, node.address = address) ∧ address.operation = operation := by
  rw [stamped, List.mem_filter, List.mem_map, decide_eq_true_iff]

/-- Nodes that other operations have made have no such addresses. -/
theorem stamped_eq_nil {operation : Nat} {nodes : List Descriptor}
    (others : ∀ node ∈ nodes, node.address.operation ≠ operation) :
    stamped operation nodes = [] := by
  rw [List.eq_nil_iff_forall_not_mem]
  intro address mem
  obtain ⟨⟨node, inside, rfl⟩, stamp⟩ := mem_stamped_iff.1 mem
  exact others node inside stamp

/-- A path that goes on from another one in two directions goes on in the same direction. -/
theorem eq_of_suffix_cons {i j : Nat} {path long : List Nat} (first : i :: path <:+ long)
    (second : j :: path <:+ long) : i = j := by
  have inside := List.suffix_of_suffix_length_le first second (Nat.le_refl _)
  exact (List.cons_eq_cons.1 (inside.eq_of_length rfl)).1

section Older

variable {operation : Nat} (older : ∀ known, old known → ∀ node ∈ known.nodes,
  node.address.operation ≠ operation)
include older

/-- The addresses of new nodes lie further on. -/
theorem GrownAt.suffix_of_mem_stamped (grown : descriptor.GrownAt fresh old here)
    {address : Address} (mem : address ∈ stamped operation descriptor.nodes) :
    here.path <:+ address.path := by
  obtain ⟨⟨node, inside, rfl⟩, stamp⟩ := mem_stamped_iff.1 mem
  rcases grown.node_cases node inside with ⟨known, holds, member⟩ | ⟨-, -, suffix⟩
  · exact absurd stamp (older known holds node member)
  · exact suffix

/-- New nodes below one address have different addresses if they have in each descriptor. -/
theorem GrownBelow.nodup_stamped_of_forall (grown : GrownBelow fresh old here index descriptors)
    (each : ∀ descriptor ∈ descriptors, (stamped operation descriptor.nodes).Nodup) :
    (stamped operation (descriptors.flatMap nodes)).Nodup := by
  have split : stamped operation (descriptors.flatMap nodes)
      = descriptors.flatMap fun descriptor => stamped operation descriptor.nodes := by
    rw [stamped, List.map_flatMap, List.filter_flatMap]
    rfl
  rw [split, List.nodup_flatMap]
  refine ⟨each, List.pairwise_iff_getElem.2 fun i j left right less => ?_⟩
  intro address inLeft inRight
  -- one path would go on in two directions
  have first := (grown i _ (List.getElem?_eq_getElem left)).suffix_of_mem_stamped older inLeft
  have second := (grown j _ (List.getElem?_eq_getElem right)).suffix_of_mem_stamped older inRight
  have same := eq_of_suffix_cons first second
  omega

/-- The new nodes of a descriptor have different addresses. -/
theorem GrownAt.nodup_stamped (grown : descriptor.GrownAt fresh old here) :
    (stamped operation descriptor.nodes).Nodup := by
  induction grown with
  | @old place descriptor holds =>
    rw [stamped_eq_nil (older descriptor holds)]
    exact List.nodup_nil
  | @new place raw arguments identity made grown ih =>
    have below : GrownBelow fresh old place 0 arguments := by
      intro offset argument found
      rw [Nat.zero_add]
      exact grown offset argument found
    have inside : (stamped operation (arguments.flatMap nodes)).Nodup := by
      refine below.nodup_stamped_of_forall older fun argument mem => ?_
      obtain ⟨offset, found⟩ := List.getElem?_of_mem mem
      exact ih offset argument found
    -- the addresses of the arguments lie behind that of the node
    have apart : place ∉ stamped operation (arguments.flatMap nodes) := by
      intro mem
      obtain ⟨⟨node, member, same⟩, stamp⟩ := mem_stamped_iff.1 mem
      obtain ⟨argument, inArguments, inside⟩ := List.mem_flatMap.1 member
      obtain ⟨offset, found⟩ := List.getElem?_of_mem inArguments
      have suffix := (grown offset argument found).suffix_of_mem_stamped older
        (mem_stamped_iff.2 ⟨⟨node, inside, same⟩, stamp⟩)
      exact absurd suffix.length_le (Nat.not_succ_le_self _)
    rw [nodes, stamped, List.map_cons, List.filter_cons]
    split
    · exact List.nodup_cons.2 ⟨apart, inside⟩
    · exact inside

/-- The new nodes of several descriptors have different addresses. -/
theorem GrownBelow.nodup_stamped (grown : GrownBelow fresh old here index descriptors) :
    (stamped operation (descriptors.flatMap nodes)).Nodup := by
  refine grown.nodup_stamped_of_forall older fun descriptor mem => ?_
  obtain ⟨offset, found⟩ := List.getElem?_of_mem mem
  exact (grown offset descriptor found).nodup_stamped older

end Older

end Descriptor

/-! ## Drafts -/

mutual

/-- Whether a draft holds raw types and finished descriptors of given kinds only. -/
def Draft.DrawsFrom (raws : RawType → Prop) (old : Descriptor → Prop) : Draft → Prop
  | ⟨raw, arguments, _⟩ =>
    (∀ type, raw = some type → raws type) ∧ Argument.AllDrawFrom raws old arguments

/-- Whether an argument of a draft holds raw types and finished descriptors of given kinds only. -/
def Argument.DrawsFrom (raws : RawType → Prop) (old : Descriptor → Prop) : Argument → Prop
  | .raw type => raws type
  | .draft inner => inner.DrawsFrom raws old
  | .built descriptor => old descriptor

/-- Whether all arguments of a draft hold raw types and finished descriptors of given kinds only. -/
def Argument.AllDrawFrom (raws : RawType → Prop) (old : Descriptor → Prop) : List Argument → Prop
  | [] => True
  | argument :: rest => argument.DrawsFrom raws old ∧ Argument.AllDrawFrom raws old rest

end

section Drafts

variable {raws : RawType → Prop} {old : Descriptor → Prop}

/-- All arguments are of a kind when each of them is. -/
theorem Argument.allDrawFrom_iff {arguments : List Argument} :
    Argument.AllDrawFrom raws old arguments ↔
      ∀ argument ∈ arguments, argument.DrawsFrom raws old := by
  induction arguments with
  | nil => exact iff_of_true trivial nofun
  | cons argument rest ih => rw [AllDrawFrom, List.forall_mem_cons, ih]

/-- A draft draws from what its raw type and its arguments draw from. -/
theorem Draft.drawsFrom_iff {draft : Draft} :
    draft.DrawsFrom raws old ↔ (∀ type, draft.raw = some type → raws type)
      ∧ ∀ argument ∈ draft.arguments, argument.DrawsFrom raws old := by
  cases draft
  rw [DrawsFrom, Argument.allDrawFrom_iff]

/-- A draft of a raw type. -/
theorem Draft.drawsFrom_ofRaw {raw : RawType} (holds : raws raw) :
    (Draft.ofRaw raw).DrawsFrom raws old := by
  refine drawsFrom_iff.2 ⟨?_, nofun⟩
  rintro type ⟨⟩
  exact holds

/-- A draft with one more argument. -/
theorem Draft.DrawsFrom.add {draft : Draft} (draws : draft.DrawsFrom raws old)
    {argument : Argument} (last : argument.DrawsFrom raws old) :
    (draft.add argument).DrawsFrom raws old := by
  rw [drawsFrom_iff] at draws ⊢
  exact ⟨draws.1, List.forall_mem_append.2 ⟨draws.2, List.forall_mem_singleton.2 last⟩⟩

mutual

/-- Building a draft makes a new node and what the arguments are made of. -/
theorem Draft.exists_of_build {draft : Draft} (draws : draft.DrawsFrom raws old) {here : Address}
    {descriptor : Descriptor} (built : draft.build here = .ok descriptor) :
    ∃ raw arguments, descriptor = ⟨here, raw, arguments, draft.identity⟩ ∧ raws raw
      ∧ Descriptor.GrownBelow (fun raw _ => raws raw) old here 0 arguments := by
  obtain ⟨raw, descriptors, known, argumentsEq, rfl⟩ := Draft.build_eq_ok_iff.1 built
  match draft with
  | ⟨_, arguments, identity⟩ =>
    rw [Draft.DrawsFrom] at draws
    exact ⟨raw, descriptors, rfl, draws.1 raw known,
      Argument.grownBelow_of_buildAll draws.2 argumentsEq⟩

/-- An argument is made of new nodes, or is finished already. -/
theorem Argument.grownAt_of_build {argument : Argument} (draws : argument.DrawsFrom raws old)
    {here : Address} {descriptor : Descriptor} (built : argument.build here = .ok descriptor) :
    descriptor.GrownAt (fun raw _ => raws raw) old here := by
  match argument with
  | .raw type =>
    rw [Argument.build] at built
    cases built
    exact Descriptor.grownBelow_nil.grownAt draws
  | .draft inner =>
    rw [Argument.build] at built
    rw [Argument.DrawsFrom] at draws
    obtain ⟨raw, arguments, rfl, holds, grown⟩ := Draft.exists_of_build draws built
    exact grown.grownAt holds
  | .built descriptor =>
    rw [Argument.build] at built
    cases built
    exact .old draws

/-- Arguments are made one after the other. -/
theorem Argument.grownBelow_of_buildAll {arguments : List Argument}
    (draws : Argument.AllDrawFrom raws old arguments) {here : Address} {index : Nat}
    {descriptors : List Descriptor}
    (built : Argument.buildAll here index arguments = .ok descriptors) :
    Descriptor.GrownBelow (fun raw _ => raws raw) old here index descriptors := by
  match arguments with
  | [] =>
    cases built
    exact Descriptor.grownBelow_nil
  | argument :: rest =>
    rw [Argument.buildAll] at built
    rw [Argument.AllDrawFrom] at draws
    obtain ⟨first, firstEq, built⟩ := ok_of_bind_eq_ok built
    obtain ⟨others, othersEq, built⟩ := ok_of_bind_eq_ok built
    cases built
    exact (Argument.grownAt_of_build draws.1 firstEq).cons
      (Argument.grownBelow_of_buildAll draws.2 othersEq)

end

end Drafts

end GenericTypes
