import Multicast.Refresh.Bindings
import Mathlib.Data.List.Induction

/-!
Receivers of frames. In the order of bindings those for the same frames stand together, so that the
receivers of frames are found in one range of the table. Main statement: they are those of the bindings
for these frames, each once and in ascending order.
-/

namespace Multicast
open Std

namespace LinkBinding

theorem compare_eq (one other : LinkBinding) : compare one other =
    (compare one.channel other.channel).then
      (compare (one.receiver, one.receiverInterface) (other.receiver, other.receiverInterface)) := by
  change (compare one.group.word other.group.word).then ((compare one.sender other.sender).then
      ((compare one.senderInterface other.senderInterface).then _)) =
    ((compare one.group.word other.group.word).then ((compare one.sender other.sender).then
      (compare one.senderInterface other.senderInterface))).then _
  rw [Ordering.then_assoc, Ordering.then_assoc]
  rfl

theorem compare_receivers (one other : NodeId × InterfaceId) :
    compare one other = (compare one.1 other.1).then (compare one.2 other.2) := rfl

theorem channel_eq_iff (binding : LinkBinding) (group : GroupAddress) (node : NodeId)
    (interface : InterfaceId) : binding.channel = (group.word, node, interface) ↔
      (binding.group = group ∧ binding.sender = node) ∧ binding.senderInterface = interface := by
  obtain ⟨⟨word⟩, _, _, _, _⟩ := binding
  obtain ⟨word'⟩ := group
  simp [channel, and_assoc]

theorem isLE_channel (one other : LinkBinding) (ordered : (compare one other).isLE = true) :
    (compare one.channel other.channel).isLE = true := by
  rw [compare_eq, Ordering.isLE_then_iff_or] at ordered
  rcases ordered with less | ⟨same, _⟩
  · rw [less]
    rfl
  · rw [same]
    rfl

theorem isLE_of_channel_eq (one other : LinkBinding) (same : one.channel = other.channel)
    (receiver : one.receiver ≤ other.receiver)
    (interface : one.receiverInterface ≤ other.receiverInterface) :
    (compare one other).isLE = true := by
  rw [compare_eq, same, compare_self, Ordering.isLE_then_iff_or]
  refine .inr ⟨rfl, ?_⟩
  rw [compare_receivers, Ordering.isLE_then_iff_or]
  rcases Nat.lt_or_eq_of_le receiver with less | equal
  · exact .inl (Nat.compare_eq_lt.2 less)
  · exact .inr ⟨Nat.compare_eq_eq.2 equal, Nat.isLE_compare.2 interface⟩

theorem channel_eq_of_isLE (one other : LinkBinding)
    (ordered : (compare one.channel other.channel).isLE = true)
    (ordered' : (compare other.channel one.channel).isLE = true) : other.channel = one.channel :=
  (LawfulEqOrd.eq_of_compare (OrientedCmp.isLE_antisymm ordered ordered')).symm

/-- Between the least binding for some frames and the last one there are no bindings for others. -/
theorem fromOn_iff (first binding : LinkBinding) (receiver : first.receiver = 0)
    (interface : first.receiverInterface = 0) :
    ((compare first binding).isLE && (compare binding.channel first.channel).isLE) = true ↔
      binding.channel = first.channel := by
  rw [Bool.and_eq_true]
  constructor
  · rintro ⟨above, below⟩
    exact channel_eq_of_isLE first binding (isLE_channel first binding above) below
  · intro same
    -- No receiver and no interface has a number below zero, so the first binding is the least.
    refine ⟨isLE_of_channel_eq first binding same.symm ?_ ?_, ?_⟩
    · rw [receiver]
      exact Nat.zero_le _
    · rw [interface]
      exact Nat.zero_le _
    · rw [same, compare_self]
      rfl

theorem between_iff (first last binding : LinkBinding) (receiver : first.receiver = 0)
    (interface : first.receiverInterface = 0) (frames : last.channel = first.channel)
    (receiver' : binding.receiver ≤ last.receiver)
    (interface' : binding.receiverInterface ≤ last.receiverInterface) :
    ((compare first binding).isLE && (compare binding last).isLE) = true ↔
      binding.channel = first.channel := by
  rw [← fromOn_iff first binding receiver interface, Bool.and_eq_true, Bool.and_eq_true]
  refine and_congr_right fun above => ⟨fun below => ?_, fun below => ?_⟩
  · rw [← frames]
    exact isLE_channel binding last below
  · have same := channel_eq_of_isLE first binding (isLE_channel first binding above) below
    exact isLE_of_channel_eq binding last (same.trans frames.symm) receiver' interface'

end LinkBinding

namespace LinkBindings

theorem receivers_eq (bindings : LinkBindings) (group : GroupAddress) (node : NodeId)
    (interface : InterfaceId) : bindings.receivers group node interface =
      (bindings.bound.keys.filter fun binding =>
        binding.group = group && binding.sender = node && binding.senderInterface = interface).map
      fun binding => (binding.receiver, binding.receiverInterface) := by
  unfold receivers fromOn
  congr 1
  refine List.filter_congr fun binding _ => ?_
  rw [Bool.eq_iff_iff, LinkBinding.fromOn_iff _ _ rfl rfl]
  simp only [Bool.and_eq_true, decide_eq_true_eq]
  exact binding.channel_eq_iff group node interface

theorem mem_receivers (bindings : LinkBindings) (group : GroupAddress) (node : NodeId)
    (interface : InterfaceId) (listener : NodeId × InterfaceId) :
    listener ∈ bindings.receivers group node interface ↔
      ⟨group, node, interface, listener.1, listener.2⟩ ∈ bindings.bound := by
  rw [receivers_eq]
  simp only [List.mem_map, List.mem_filter, ExtTreeMap.mem_keys, Bool.and_eq_true,
    decide_eq_true_eq]
  constructor
  · rintro ⟨binding, ⟨bound, ⟨rfl, rfl⟩, rfl⟩, rfl⟩
    exact bound
  · intro bound
    exact ⟨_, ⟨bound, ⟨rfl, rfl⟩, rfl⟩, rfl⟩

theorem pairwise_receivers (bindings : LinkBindings) (group : GroupAddress) (node : NodeId)
    (interface : InterfaceId) : (bindings.receivers group node interface).Pairwise
      fun one other => one.1 < other.1 ∨ one.1 = other.1 ∧ one.2 < other.2 := by
  have ascending : bindings.bound.keys.Pairwise fun one other => compare one other = .lt :=
    ExtTreeMap.ordered_keys
  unfold receivers fromOn
  refine List.pairwise_map.2 ((ascending.filter _).imp_of_mem fun {one other} listed listed' less => ?_)
  have frames := (LinkBinding.fromOn_iff _ one rfl rfl).1 (List.mem_filter.1 listed).2
  have frames' := (LinkBinding.fromOn_iff _ other rfl rfl).1 (List.mem_filter.1 listed').2
  rw [LinkBinding.compare_eq, frames, frames', compare_self, Ordering.eq_then,
    LinkBinding.compare_receivers, Ordering.then_eq_lt] at less
  simpa only [Nat.compare_eq_lt, Nat.compare_eq_eq] using less

theorem nodup_receivers (bindings : LinkBindings) (group : GroupAddress) (node : NodeId)
    (interface : InterfaceId) : (bindings.receivers group node interface).Nodup := by
  refine (bindings.pairwise_receivers group node interface).imp ?_
  rintro one other (less | ⟨_, less⟩) rfl
  · exact Nat.lt_irrefl _ less
  · exact Nat.lt_irrefl _ less

def between (bindings : LinkBindings) (first last : LinkBinding) : List LinkBinding :=
  bindings.bound.keys.filter fun binding =>
    (compare first binding).isLE && (compare binding last).isLE

end LinkBindings

/-! ## Sequences of calls -/

inductive BindingCall where
  | begin
  | bind (binding : LinkBinding)
  | unbind (binding : LinkBinding)

namespace LinkBindings

def call (bindings : LinkBindings) : BindingCall → LinkBindings
  | .begin => bindings.beginGeneration
  | .bind binding => bindings.bind binding
  | .unbind binding => bindings.unbindIfStale binding

def afterCalls (calls : List BindingCall) : LinkBindings := calls.foldl call empty

theorem bound_of_call (bindings : LinkBindings) (made : BindingCall) (binding : LinkBinding)
    (bound : binding ∈ (bindings.call made).bound) :
    made = .bind binding ∨ binding ∈ bindings.bound := by
  cases made with
  | begin => exact .inr bound
  | bind added =>
    change binding ∈ bindings.bound.insert added bindings.generation at bound
    rw [ExtTreeMap.mem_insert, Std.compare_eq_iff_eq] at bound
    exact bound.imp_left fun same => by rw [same]
  | unbind removed =>
    change binding ∈ (bindings.unbindIfStale removed).bound at bound
    unfold unbindIfStale at bound
    split at bound
    · exact .inr (ExtTreeMap.mem_of_mem_erase bound)
    · exact .inr bound

theorem bind_of_bound (calls : List BindingCall) (binding : LinkBinding)
    (bound : binding ∈ (afterCalls calls).bound) : .bind binding ∈ calls := by
  induction calls using List.reverseRecOn with
  | nil => exact absurd bound ExtTreeMap.not_mem_empty
  | append_singleton calls made ih =>
    unfold afterCalls at bound ih
    rw [List.foldl_append] at bound
    rcases bound_of_call _ made binding bound with rfl | before
    · exact List.mem_append_right _ List.mem_cons_self
    · exact List.mem_append_left _ (ih before)

/-- Whatever calls were made: the receivers of frames are those of the bindings that are there for the
frames' group, sender and interface, and no others, in strictly ascending order. As long as all numbers
have 32 bits, they are the bindings between the two that have the least and the greatest numbers. -/
theorem receivers_afterCalls (calls : List BindingCall) (group : GroupAddress) (node : NodeId)
    (interface : InterfaceId) :
    (∀ receiver enters, (receiver, enters) ∈ (afterCalls calls).receivers group node interface ↔
      (afterCalls calls).contains ⟨group, node, interface, receiver, enters⟩ = true) ∧
    ((afterCalls calls).receivers group node interface).Pairwise
      (fun one other => one.1 < other.1 ∨ one.1 = other.1 ∧ one.2 < other.2) ∧
    ((∀ binding, .bind binding ∈ calls →
        binding.receiver < UInt32.size ∧ binding.receiverInterface < UInt32.size) →
      (afterCalls calls).receivers group node interface =
        ((afterCalls calls).between ⟨group, node, interface, 0, 0⟩
          ⟨group, node, interface, UInt32.size - 1, UInt32.size - 1⟩).map
        fun binding => (binding.receiver, binding.receiverInterface)) := by
  refine ⟨fun receiver enters => ?_, (afterCalls calls).pairwise_receivers group node interface, ?_⟩
  · exact ((afterCalls calls).mem_receivers group node interface (receiver, enters)).trans
      ExtTreeMap.mem_iff_contains
  · intro fits
    unfold receivers fromOn between
    congr 1
    refine List.filter_congr fun binding listed => ?_
    obtain ⟨receiver, enters⟩ := fits binding (bind_of_bound calls binding
      (ExtTreeMap.mem_keys.1 listed))
    have ends := LinkBinding.between_iff ⟨group, node, interface, 0, 0⟩
      ⟨group, node, interface, UInt32.size - 1, UInt32.size - 1⟩ binding rfl rfl rfl
      (Nat.le_sub_one_of_lt receiver) (Nat.le_sub_one_of_lt enters)
    rw [Bool.eq_iff_iff, ends, LinkBinding.fromOn_iff _ _ rfl rfl]

def farEnds : List BindingCall :=
  [.begin, .bind ⟨.routeBase, 5, 1, 4294967295, 4294967295⟩,
    .bind ⟨.routeBase, 5, 0, 4294967295, 4294967295⟩, .bind ⟨.routeBase, 5, 1, 0, 0⟩,
    .bind ⟨.routeBase, 5, 2, 0, 0⟩, .bind ⟨.bierBase, 5, 1, 3, 1⟩, .bind ⟨.routeBase, 5, 1, 7, 2⟩,
    .begin, .bind ⟨.routeBase, 5, 1, 0, 0⟩, .unbind ⟨.routeBase, 5, 1, 7, 2⟩,
    .unbind ⟨.routeBase, 5, 1, 0, 0⟩]

theorem receivers_afterCalls_farEnds :
    (afterCalls farEnds).receivers .routeBase 5 1 = [(0, 0), (4294967295, 4294967295)] ∧
    (∀ binding, .bind binding ∈ farEnds →
      binding.receiver < UInt32.size ∧ binding.receiverInterface < UInt32.size) ∧
    ((afterCalls farEnds).between ⟨.routeBase, 5, 1, 0, 0⟩
      ⟨.routeBase, 5, 1, UInt32.size - 1, UInt32.size - 1⟩).map
        (fun binding => (binding.receiver, binding.receiverInterface)) =
      [(0, 0), (4294967295, 4294967295)] := by
  obtain ⟨_, _, between⟩ := receivers_afterCalls farEnds .routeBase 5 1
  have listed : (afterCalls farEnds).receivers .routeBase 5 1 =
      [(0, 0), (4294967295, 4294967295)] := by decide +kernel
  have fits : ∀ binding, .bind binding ∈ farEnds →
      binding.receiver < UInt32.size ∧ binding.receiverInterface < UInt32.size := by
    simp [farEnds, UInt32.size]
  exact ⟨listed, fits, (between fits).symm.trans listed⟩

end LinkBindings
end Multicast
