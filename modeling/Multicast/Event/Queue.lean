import Multicast.Event.Basic

/-!
The event queue. Events come out by time, then by priority, then by node, events of no node first,
and then in the order they were scheduled. Each event gets a number of its own when it is scheduled,
so no two have the same key. The clock stands at the last event that came out. Times have no upper bound
here; where a sum of times goes beyond the longest one there is, a run is aborted, which
`Simulation.Overruns` tells.
-/

namespace Multicast
open Std

structure EventKey where
  time : Nat
  priority : Priority
  /-- The node the event is for; timers are for none. -/
  node : Option NodeId
  sequence : Nat
deriving DecidableEq

namespace EventKey

def order (key : EventKey) : Nat × Nat × Option NodeId × Nat :=
  (key.time, key.priority.rank, key.node, key.sequence)

instance : Ord EventKey where
  compare := compareOn order

instance : TransOrd EventKey := inferInstanceAs (TransCmp (compareOn order))

instance : LawfulEqOrd EventKey :=
  lawfulEqCmp_compareOn order fun first second same => by
    obtain ⟨_, firstPriority, _, _⟩ := first
    obtain ⟨_, secondPriority, _, _⟩ := second
    simp only [order, Prod.mk.injEq] at same
    obtain ⟨rfl, ranks, rfl, rfl⟩ := same
    cases firstPriority <;> cases secondPriority <;> simp_all [Priority.rank]

end EventKey

structure EventQueue where
  events : ExtTreeMap EventKey Event
  scheduled : Nat
  now : Nat
  timersSet : Nat
deriving DecidableEq

namespace EventQueue

def empty : EventQueue := ⟨∅, 0, 0, 0⟩

def size (queue : EventQueue) : Nat := queue.events.size

def isEmpty (queue : EventQueue) : Bool := queue.events.isEmpty

def nextKey (queue : EventQueue) (node : Option NodeId) (time : Nat) (event : Event) : EventKey :=
  ⟨time, event.priority, node, queue.scheduled + 1⟩

def schedule (queue : EventQueue) (node : Option NodeId) (time : Nat) (event : Event) :
    EventQueue :=
  { queue with
    events := queue.events.insert (queue.nextKey node time event) event
    scheduled := queue.scheduled + 1 }

def setTimer (queue : EventQueue) (timer : Timer) (delay : Nat) : EventQueue :=
  { queue with timersSet := queue.timersSet + 1 }.schedule none (queue.now + delay) (.timer timer)

def next? (queue : EventQueue) : Option (EventKey × Event) :=
  queue.events.minKey?.bind fun key => queue.events[key]?.map fun event => (key, event)

def popUntil (queue : EventQueue) (time : Nat) : Option (EventKey × Event × EventQueue) :=
  match queue.next? with
  | none => none
  | some (key, event) =>
    if time < key.time then none
    else some (key, event, { queue with events := queue.events.erase key, now := key.time })

def advanceTo (queue : EventQueue) (time : Nat) : EventQueue := { queue with now := max queue.now time }

def drainUntil (time : Nat) : (count : Nat) → EventQueue → List (EventKey × Event) × EventQueue
  | 0, queue => ([], queue)
  | count + 1, queue =>
    match queue.popUntil time with
    | none => ([], queue)
    | some (key, event, rest) =>
      let (later, last) := drainUntil time count rest
      ((key, event) :: later, last)

end EventQueue
end Multicast
