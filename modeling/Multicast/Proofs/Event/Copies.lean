import Multicast.Event.Queue
import Multicast.Proofs.Table

/-!
Copies in flight. A packet with a bitstring is on its way in copies, each of which is an arrival that
waits in the queue. Scheduling an event adds its copy at most, and taking an event out takes its copy
away.
-/

namespace Multicast
open Std

/-- A copy of the packet of a request with a sequence number, with the positions it is sent to. -/
structure Copy where
  request : RequestId
  sequence : UInt64
  bitstring : Bitstring
deriving DecidableEq

def Packet.copy? (packet : Packet) : Option Copy :=
  match BierHeader.decode packet.header with
  | .error _ => none
  | .ok (header, _) => some ⟨packet.request, header.sequence, header.bitstring⟩

theorem Packet.request_of_copy? (packet : Packet) (copy : Copy) (carried : packet.copy? = some copy) :
    copy.request = packet.request := by
  unfold copy? at carried
  split at carried
  · cases carried
  · cases carried
    rfl

def Event.copy? : Event → Option Copy
  | .arrival packet _ => packet.copy?
  | _ => none

def Event.Readable (event : Event) : Prop :=
  ∀ packet interface, event = .arrival packet interface → ∃ copy, packet.copy? = some copy

theorem subperm_filterMap {α β : Type} (choose : α → Option β) (some all : List α)
    (subperm : some.Subperm all) : (some.filterMap choose).Subperm (all.filterMap choose) := by
  obtain ⟨kept, perm, sublist⟩ := subperm
  exact ⟨kept.filterMap choose, perm.filterMap choose, sublist.filterMap choose⟩

namespace EventQueue

def copies (queue : EventQueue) : List Copy :=
  queue.events.toList.filterMap fun entry => entry.2.copy?

def Readable (queue : EventQueue) : Prop :=
  ∀ (key : EventKey) (event : Event), queue.events[key]? = some event → event.Readable

theorem mem_entries (events : ExtTreeMap EventKey Event) (entry : EventKey × Event) :
    entry ∈ events.toList ↔ events[entry.1]? = some entry.2 :=
  ExtTreeMap.mem_toList_iff_getElem?_eq_some

theorem entries_insert (events : ExtTreeMap EventKey Event) (key : EventKey) (event : Event) :
    (events.insert key event).toList.Subperm ((key, event) :: events.toList) := by
  apply List.subperm_of_subset (nodup_toList _)
  intro entry member
  rw [mem_entries, ExtTreeMap.getElem?_insert] at member
  by_cases same : key = entry.1
  · rw [if_pos (by rw [same, compare_self])] at member
    exact List.mem_cons.2 (.inl (Prod.ext same.symm (Option.some.inj member).symm))
  · rw [if_neg (by rwa [Std.compare_eq_iff_eq])] at member
    exact List.mem_cons_of_mem _ ((mem_entries ..).2 member)

theorem copies_schedule (queue : EventQueue) (node : Option NodeId) (time : Nat) (event : Event) :
    (queue.schedule node time event).copies.Subperm (event.copy?.toList ++ queue.copies) := by
  have added := subperm_filterMap (fun entry => entry.2.copy?) _ _
    (entries_insert queue.events (queue.nextKey node time event) event)
  rw [List.filterMap_cons] at added
  unfold copies schedule
  cases copy : event.copy? with
  | none => simpa [copy] using added
  | some copy => simpa [copy] using added

theorem readable_schedule (queue : EventQueue) (node : Option NodeId) (time : Nat) (event : Event)
    (readable : queue.Readable) (fresh : event.Readable) :
    (queue.schedule node time event).Readable := by
  intro key other found
  unfold schedule at found
  rw [ExtTreeMap.getElem?_insert] at found
  split at found
  · cases found
    exact fresh
  · exact readable key other found

theorem next?_eq_head? (queue : EventQueue) : queue.next? = queue.events.toList.head? := by
  unfold next?
  rw [ExtTreeMap.minKey?_eq_head?_keys, ← ExtTreeMap.map_fst_toList_eq_keys]
  cases entries : queue.events.toList with
  | nil => rfl
  | cons entry rest =>
    have stored := (mem_entries queue.events entry).1 (by rw [entries]; exact List.mem_cons_self)
    simp [stored]

theorem popUntil_of_head? (queue : EventQueue) (horizon : Nat) (key : EventKey) (event : Event)
    (head : queue.events.toList.head? = some (key, event)) :
    queue.popUntil horizon =
      if horizon < key.time then none
      else some (key, event, { queue with events := queue.events.erase key, now := key.time }) := by
  unfold popUntil
  rw [next?_eq_head?, head]

theorem next?_eq_some (queue : EventQueue) (key : EventKey) (event : Event)
    (found : queue.next? = some (key, event)) : queue.events[key]? = some event := by
  rw [next?_eq_head?] at found
  exact (mem_entries queue.events (key, event)).1 (List.mem_of_head? found)

theorem popUntil_eq_some (queue rest : EventQueue) (time : Nat) (key : EventKey) (event : Event)
    (popped : queue.popUntil time = some (key, event, rest)) :
    queue.events[key]? = some event ∧
      rest = { queue with events := queue.events.erase key, now := key.time } := by
  unfold popUntil at popped
  split at popped
  · cases popped
  · rename_i key' event' found
    split at popped
    · cases popped
    · cases popped
      exact ⟨queue.next?_eq_some key event found, rfl⟩

theorem copies_popUntil (queue rest : EventQueue) (time : Nat) (key : EventKey) (event : Event)
    (popped : queue.popUntil time = some (key, event, rest)) :
    (event.copy?.toList ++ rest.copies).Subperm queue.copies := by
  obtain ⟨found, rfl⟩ := queue.popUntil_eq_some rest time key event popped
  have taken := subperm_filterMap (fun entry => entry.2.copy?) _ _
    (perm_toList_erase queue.events key event found).symm.subperm
  rw [List.filterMap_cons] at taken
  unfold copies
  cases copy : event.copy? with
  | none => simpa [copy] using taken
  | some copy => simpa [copy] using taken

theorem readable_popUntil (queue rest : EventQueue) (time : Nat) (key : EventKey) (event : Event)
    (readable : queue.Readable) (popped : queue.popUntil time = some (key, event, rest)) :
    event.Readable ∧ rest.Readable := by
  obtain ⟨found, rfl⟩ := queue.popUntil_eq_some rest time key event popped
  refine ⟨readable key event found, fun other later stored => readable other later ?_⟩
  rw [ExtTreeMap.getElem?_erase] at stored
  split at stored
  · cases stored
  · exact stored

end EventQueue
end Multicast
