import Multicast.Proofs.Refresh.Renewal
import Multicast.Proofs.Simulation.Course

/-!
Link bindings of a run. Main statement: between any two events, the bindings that the trees in force
need are bound, the removal of every other one waits in the queue, and only such a removal takes a
binding away.
-/

namespace Multicast
open Std

namespace EventQueue

def Awaits (queue : EventQueue) (event : Event) : Prop := ∃ entry ∈ queue.waiting, entry.2 = event

theorem Popped.awaits (queue rest : EventQueue) (horizon : Nat) (key : EventKey) (event : Event)
    (popped : queue.Popped horizon key event rest) (other : Event) (awaits : queue.Awaits other)
    (different : other ≠ event) : rest.Awaits other := by
  obtain ⟨entry, waits, same⟩ := awaits
  cases List.mem_cons.1 (popped.waiting.mem_iff.1 waits) with
  | inl own =>
    subst own
    exact absurd same.symm different
  | inr left => exact ⟨entry, left, same⟩

theorem Gains.awaits (queue later : EventQueue) (bookings : List Booking)
    (gains : queue.Gains later bookings) (event : Event)
    (awaits : queue.Awaits event ∨ ∃ booking ∈ bookings, booking.event = event) :
    later.Awaits event := by
  cases awaits with
  | inl before =>
    obtain ⟨entry, waits, same⟩ := before
    exact ⟨entry, gains.keeps _ _ _ entry waits, same⟩
  | inr booked =>
    obtain ⟨booking, listed, same⟩ := booked
    have mapped := gains.booked.mem_iff.2 (List.mem_append_left _ listed)
    obtain ⟨entry, waits, rfl⟩ := List.mem_map.1 mapped
    exact ⟨entry, waits, same⟩

end EventQueue

namespace Simulation
variable {σ : Type}

/-- The bindings are current, and the removal of every stale one waits. -/
structure Tended (simulation : Simulation σ) : Prop where
  current : simulation.driver.Current
  pending (binding : LinkBinding) (stale : simulation.driver.bindings.isStale binding = true) :
    simulation.queue.Awaits (.timer (.unbind binding))

theorem tended_start (config : SimulationConfig) (source : σ) (roles : NodeRoles)
    (requests : List Request) (positions : BitPositions) :
    (start config source roles requests positions).Tended where
  current := RefreshDriver.current_start ..
  pending binding stale := by
    simp [start, RefreshDriver.start, LinkBindings.isStale, LinkBindings.empty] at stale

section
variable [SnapshotSource σ] (simulation : Simulation σ) (current : simulation.driver.Current)
  (node : Option NodeId) (event : Event)

include current in
theorem current_handle : (simulation.handle node event).2.driver.Current := by
  rw [driver_handle]
  split
  · exact simulation.driver.current_refresh current _
  · exact simulation.driver.current_unbind current _
  · exact current

theorem unbind_of_newlyStale (epoch : Nat) (outcome : RefreshOutcome) (timers : List TimerRequest)
    (driver : RefreshDriver σ)
    (refreshed : simulation.driver.refresh epoch = (.ok (outcome, timers), driver))
    (binding : LinkBinding) (stale : binding ∈ driver.bindings.newlyStale) :
    ⟨none, simulation.now + simulation.driver.config.grace, .timer (.unbind binding)⟩ ∈
      simulation.bookings node (.timer (.refresh epoch)) := by
  rw [simulation.bookings_of_ok node _ [] rfl]
  apply List.mem_append_right
  simp only [sequels, refreshed]
  rw [simulation.driver.timers_of_refresh driver epoch outcome timers refreshed]
  apply List.mem_map.2
  exact ⟨⟨.unbind binding, simulation.driver.config.grace⟩,
    List.mem_append_left _ (List.mem_map_of_mem stale), rfl⟩

/-- What is stale after an event was stale before and its removal has not just come due, or a refresh
has booked its removal. -/
theorem stale_of_handle (binding : LinkBinding)
    (stale : (simulation.handle node event).2.driver.bindings.isStale binding = true) :
    (simulation.driver.bindings.isStale binding = true ∧ event ≠ .timer (.unbind binding)) ∨
      ∃ booking ∈ simulation.bookings node event, booking.event = .timer (.unbind binding) := by
  rw [driver_handle] at stale
  cases event with
  | timer timer =>
    cases timer with
    | refresh epoch =>
      dsimp only at stale
      cases refreshed : simulation.driver.refresh epoch with
      | mk result later =>
        rw [refreshed] at stale
        cases result with
        | error error =>
          obtain ⟨_, _, rfl⟩ := simulation.driver.exists_of_refresh_error later epoch error refreshed
          exact .inl ⟨stale, by simp⟩
        | ok result =>
          cases simulation.driver.newlyStale_or_isStale_of_refresh later epoch result.1 result.2
              refreshed binding stale with
          | inl fresh =>
            right
            exact ⟨_, simulation.unbind_of_newlyStale node epoch result.1 result.2 later refreshed
              binding fresh, rfl⟩
          | inr before => exact .inl ⟨before, by simp⟩
    | unbind removed =>
      left
      have sheds := LinkBindings.sheds_unbind _ _
        (LinkBindings.sheds_refl simulation.driver.bindings) removed
      refine ⟨sheds.isStale _ _ binding stale, ?_⟩
      intro same
      cases same
      have gone := simulation.driver.bindings.isStale_unbindIfStale binding
      exact absurd (stale.symm.trans gone) (by decide)
  | burst id => exact .inl ⟨stale, by simp⟩
  | arrival packet interface => exact .inl ⟨stale, by simp⟩

theorem unbound_of_handle (current : simulation.driver.Current) (binding : LinkBinding)
    (bound : binding ∈ simulation.driver.bindings.bound)
    (gone : binding ∉ (simulation.handle node event).2.driver.bindings.bound) :
    event = .timer (.unbind binding) ∧ ¬simulation.driver.NeedsNow binding := by
  rw [driver_handle] at gone
  cases event with
  | timer timer =>
    cases timer with
    | refresh epoch => exact absurd (simulation.driver.mem_bound_refresh epoch binding bound) gone
    | unbind removed =>
      obtain ⟨rfl, stale⟩ := simulation.driver.bindings.eq_of_unbindIfStale removed binding bound gone
      exact ⟨rfl, ((current.isStale_eq_true _ removed).1 stale).2⟩
  | burst id => exact absurd bound gone
  | arrival packet interface => exact absurd bound gone

end

theorem tended_of_course [SnapshotSource σ] (config : SimulationConfig) (source : σ)
    (roles : NodeRoles) (requests : List Request) (positions : BitPositions)
    (log : List (Moment σ)) (simulation : Simulation σ)
    (course : (start config source roles requests positions).Course log simulation) :
    simulation.Tended := by
  have ordered := (gains_start config source roles requests positions).ordered
  induction course with
  | start => exact tended_start config source roles requests positions
  | step log simulation later horizon key event queue result earlier _ popped handled ih =>
    have out := simulation.queue.popped_of_popUntil queue horizon key event popped
    obtain ⟨inOrder, _⟩ := ordered_of_course _ simulation log ordered earlier
    obtain ⟨rest, _, _⟩ := simulation.queue.ordered_of_popped queue inOrder horizon key event out
    have gains := (simulation.pop event queue).gains_handle rest key.node event
    have current := (simulation.pop event queue).current_handle ih.current key.node event
    have stale := (simulation.pop event queue).stale_of_handle key.node event
    rw [handled] at gains current stale
    refine ⟨current, fun binding now => gains.awaits _ _ _ _ ?_⟩
    cases stale binding now with
    | inl before =>
      left
      exact out.awaits _ _ _ _ _ _ (ih.pending binding before.1) before.2.symm
    | inr booked => exact .inr booked
  | rest log simulation horizon _ _ ih => exact ⟨ih.current, ih.pending⟩

section
variable [SnapshotSource σ] (config : SimulationConfig) (source : σ) (roles : NodeRoles)
  (requests : List Request) (positions : BitPositions) (log : List (Moment σ))
  (simulation : Simulation σ)
  (course : (start config source roles requests positions).Course log simulation)
include course

theorem current_of_moment (moment : Moment σ) (member : moment ∈ log) :
    moment.before.driver.Current ∧ moment.after.driver.Current := by
  obtain ⟨past, rest, split⟩ := List.append_of_mem member
  obtain ⟨earlier, _, _, course', _, same, handled⟩ :=
    course_of_append _ simulation log course past rest moment split
  have before : moment.before.driver.Current := by
    rw [same]
    exact (tended_of_course config source roles requests positions past earlier course').current
  have after := moment.before.current_handle before moment.key.node moment.event
  rw [handled] at after
  exact ⟨before, after⟩

theorem unneeded_of_gone (moment : Moment σ) (member : moment ∈ log) (binding : LinkBinding)
    (bound : binding ∈ moment.before.driver.bindings.bound)
    (gone : binding ∉ moment.after.driver.bindings.bound) :
    moment.event = .timer (.unbind binding) ∧ ¬moment.before.driver.NeedsNow binding := by
  obtain ⟨_, proper⟩ := ordered_of_course _ simulation log
    (gains_start config source roles requests positions).ordered course
  obtain ⟨current, _⟩ := current_of_moment config source roles requests positions log simulation
    course moment member
  have after : (moment.before.handle moment.key.node moment.event).2 = moment.after := by
    rw [(proper moment member).handled]
  rw [← after] at gone
  exact moment.before.unbound_of_handle moment.key.node moment.event current binding bound gone

/-- Between any two events of a run, what the trees in force need is bound, renewed by the current
generation, and the removal of whatever else is bound waits. So when no removal waits, exactly what
the trees in force need is bound. A binding only ever goes with its removal, and never while a tree
in force needs it. -/
theorem bindings_of_course :
    (∀ binding, simulation.driver.NeedsNow binding →
        simulation.driver.bindings.bound[binding]? = some simulation.driver.bindings.generation) ∧
      (∀ binding ∈ simulation.driver.bindings.bound, simulation.driver.NeedsNow binding ∨
        simulation.queue.Awaits (.timer (.unbind binding))) ∧
      ((∀ binding, ¬simulation.queue.Awaits (.timer (.unbind binding))) → ∀ binding,
        binding ∈ simulation.driver.bindings.bound ↔ simulation.driver.NeedsNow binding) ∧
      ∀ moment ∈ log, ∀ binding ∈ moment.before.driver.bindings.bound,
        binding ∉ moment.after.driver.bindings.bound →
          moment.event = .timer (.unbind binding) ∧ ¬moment.before.driver.NeedsNow binding := by
  have tended := tended_of_course config source roles requests positions log simulation course
  have others (binding : LinkBinding) (bound : binding ∈ simulation.driver.bindings.bound) :
      simulation.driver.NeedsNow binding ∨ simulation.queue.Awaits (.timer (.unbind binding)) := by
    by_cases needs : simulation.driver.NeedsNow binding
    · exact .inl needs
    · exact .inr (tended.pending binding
        ((tended.current.isStale_eq_true _ binding).2 ⟨bound, needs⟩))
  refine ⟨tended.current.needed, others, ?_,
    unneeded_of_gone config source roles requests positions log simulation course⟩
  intro none binding
  constructor
  · intro bound
    exact (others binding bound).resolve_right (none binding)
  · intro needs
    rw [ExtTreeMap.mem_iff_isSome_getElem?, tended.current.needed binding needs]
    rfl

end

end Simulation

/-- Station 1 reaches station 2 over satellite 0 or directly; packets go to the given node first. -/
def Snapshot.handover (epoch : Nat) (first : NodeId) : Snapshot :=
  { ((Snapshot.empty epoch 3).addLink 1 1 0 1).addLink 0 2 2 1 |>.addLink 1 2 2 2 with
    nextHops := (NextHops.empty.set 1 2 [first]).set 0 2 [2] }

def SnapshotPlan.handover : SnapshotPlan :=
  ⟨fun epoch => .ok (.handover epoch (if epoch / 10 % 2 = 0 then 0 else 2))⟩

namespace Simulation

def handoverRun (grace : Nat) : Simulation SnapshotPlan :=
  start { refresh := { interval := 10, finish := 60, grace }, linkLatency := 1 } .handover
    (.ofCounts 3 1) [⟨0, 1, (∅ : NodeSet).insert 2, 1.0, 0, 60, "", ""⟩] .empty

def uplink : LinkBinding := ⟨.forRequest .routeBase 0, 1, 1, 0, 1⟩

def downlink : LinkBinding := ⟨.forRequest .routeBase 0, 0, 2, 2, 1⟩

/-- The removals that are set at 10 come due at 22, when the refresh at 20 has renewed the bindings. -/
theorem bindings_of_course_handover :
    ∃ log simulation, (handoverRun 12).Course log simulation ∧
      (∃ moment ∈ log, moment.key.time = 22 ∧ moment.event = .timer (.unbind uplink)) ∧
      simulation.driver.lastEpoch = some 20 ∧
      (∀ binding ∈ [uplink, downlink], simulation.driver.NeedsNow binding ∧
        simulation.driver.bindings.bound[binding]? = some simulation.driver.bindings.generation) ∧
      ∀ binding, binding ∈ simulation.driver.bindings.bound ↔
        simulation.driver.NeedsNow binding := by
  have course := course_logUntil (handoverRun 12) (handoverRun 12) [] .start 22 100 (by decide)
  have removal : ((handoverRun 12).logUntil 22 100).1.any (fun moment =>
      moment.key.time = 22 ∧ moment.event = .timer (.unbind uplink)) = true := by decide +kernel
  have epoch : ((handoverRun 12).logUntil 22 100).2.driver.lastEpoch = some 20 := by decide +kernel
  have bound : ∀ binding ∈ [uplink, downlink],
      ((handoverRun 12).logUntil 22 100).2.driver.bindings.contains binding = true := by
    decide +kernel
  have events : ((handoverRun 12).logUntil 22 100).2.queue.waiting.map Prod.snd =
      [.timer (.refresh 30)] := by decide +kernel
  obtain ⟨needed, _, exactly, _⟩ := bindings_of_course _ _ _ _ _ _ _ course
  have none (binding : LinkBinding) :
      ¬((handoverRun 12).logUntil 22 100).2.queue.Awaits (.timer (.unbind binding)) := by
    intro awaits
    obtain ⟨entry, waits, same⟩ := awaits
    have listed := List.mem_map_of_mem (f := Prod.snd) waits
    rw [events, same] at listed
    cases List.mem_singleton.1 listed
  obtain ⟨moment, member, found⟩ := List.any_eq_true.1 removal
  refine ⟨_, _, course, ⟨moment, member, of_decide_eq_true found⟩, epoch, ?_, exactly none⟩
  intro binding listed
  have needs := (exactly none binding).1 (ExtTreeMap.contains_iff_mem.1 (bound binding listed))
  exact ⟨needs, needed binding needs⟩

end Simulation
end Multicast
