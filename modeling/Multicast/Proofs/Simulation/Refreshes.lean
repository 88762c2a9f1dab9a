import Multicast.Proofs.Refresh.Bindings
import Multicast.Proofs.Simulation.Course
import Multicast.Proofs.Unicast.Epochs

/-!
Refreshes of a run. Each refresh sets the timer of the next one, so exactly one waits until the last
is done. Main statement: in a run without errors the refreshes come at the multiples of the interval
that are before the finish, and every packet meets the state of the last one that is due.
-/

namespace Multicast
open Std

def Booking.refresh? (booking : Booking) : Option (Nat × Nat) :=
  match booking.event with
  | .timer (.refresh epoch) => some (booking.time, epoch)
  | _ => none

def refreshTimes (bookings : List Booking) : List (Nat × Nat) := bookings.filterMap Booking.refresh?

def refreshesOf {σ : Type} (log : List (Moment σ)) : List (Nat × Nat) :=
  refreshTimes (log.map Moment.booking)

theorem refreshesOf_append {σ : Type} (log : List (Moment σ)) (moment : Moment σ) :
    refreshesOf (log ++ [moment]) = refreshesOf log ++ moment.booking.refresh?.toList := by
  unfold refreshesOf refreshTimes
  rw [List.map_append, List.filterMap_append]
  cases found : moment.booking.refresh? with
  | none => simp [found]
  | some time => simp [found]

theorem refreshTimes_append (bookings more : List Booking) :
    refreshTimes (bookings ++ more) = refreshTimes bookings ++ refreshTimes more :=
  List.filterMap_append

theorem refresh?_eq_none (booking : Booking)
    (other : ∀ epoch, booking.event ≠ .timer (.refresh epoch)) : booking.refresh? = none := by
  unfold Booking.refresh?
  split
  · rename_i epoch same
    exact absurd same (other epoch)
  · rfl

theorem refreshTimes_eq_nil (bookings : List Booking)
    (none : ∀ booking ∈ bookings, ∀ epoch, booking.event ≠ .timer (.refresh epoch)) :
    refreshTimes bookings = [] :=
  List.filterMap_eq_nil_iff.2 fun booking listed => refresh?_eq_none booking (none booking listed)

theorem EventQueue.Popped.refreshTimes_perm (queue rest : EventQueue) (horizon : Nat) (key : EventKey)
    (event : Event) (popped : queue.Popped horizon key event rest) :
    (refreshTimes queue.booked).Perm
      ((Booking.ofEntry (key, event)).refresh?.toList ++ refreshTimes rest.booked) := by
  have times := popped.booked.filterMap Booking.refresh?
  rw [List.filterMap_cons] at times
  cases own : (Booking.ofEntry (key, event)).refresh? with
  | none => rwa [own] at times
  | some entry => rwa [own] at times

namespace RefreshConfig

/-- Whether the refresh with the given index takes place: the first one always does, and with static
state it is the only one. -/
def Due (config : RefreshConfig) (index : Nat) : Prop :=
  index = 0 ∨ (config.forceStatic = false ∧ index * config.interval < config.finishInstant)

instance (config : RefreshConfig) (index : Nat) : Decidable (config.Due index) :=
  inferInstanceAs (Decidable (_ ∨ _))

theorem Due.earlier (config : RefreshConfig) (index later : Nat) (due : config.Due later)
    (before : index ≤ later) : config.Due index := by
  rcases due with rfl | ⟨dynamic, inside⟩
  · exact .inl (Nat.le_zero.1 before)
  · exact .inr ⟨dynamic, Nat.lt_of_le_of_lt (Nat.mul_le_mul_right _ before) inside⟩

def upcoming (config : RefreshConfig) (index : Nat) : List (Nat × Nat) :=
  if config.Due index then [(index * config.interval, index * config.interval)] else []

end RefreshConfig

namespace RefreshDriver
variable {σ : Type}

theorem nextEpoch?_eq (driver : RefreshDriver σ) (index : Nat) :
    driver.nextEpoch? (index * driver.config.interval) =
      if driver.config.Due (index + 1) then some ((index + 1) * driver.config.interval) else none := by
  have next : index * driver.config.interval + driver.config.interval =
      (index + 1) * driver.config.interval := (Nat.succ_mul _ _).symm
  have finish : driver.config.finishInstant ≤ lastInstant := Nat.min_le_right _ _
  unfold nextEpoch? instantAfter RefreshConfig.Due
  by_cases static : driver.config.forceStatic = true
  · simp [static]
  · have dynamic : driver.config.forceStatic = false := by simpa using static
    simp only [dynamic, next, Bool.not_false, Bool.true_and, decide_eq_true_eq,
      Nat.add_eq_zero_iff, Nat.one_ne_zero, and_false, false_or, true_and]
    generalize (index + 1) * driver.config.interval = later
    by_cases before : later < driver.config.finishInstant
    · have early : min later lastInstant = later := Nat.min_eq_left (by omega)
      rw [early]
    · rw [if_neg before, if_neg (by omega)]

theorem exists_snapshot_of_refresh [SnapshotSource σ] (driver later : RefreshDriver σ)
    (epoch : Nat) (outcome : RefreshOutcome) (timers : List TimerRequest)
    (refreshed : driver.refresh epoch = (.ok (outcome, timers), later)) :
    ∃ snapshot source stale, SnapshotSource.load driver.source epoch = (.ok snapshot, source) ∧
      later.snapshot = some snapshot ∧ later.lastEpoch = some epoch ∧
      later.state = (match driver.nextEpoch? epoch with
        | none => .idle
        | some next => .scheduled next) ∧
      timers = driver.timers stale (driver.nextEpoch? epoch) := by
  have ways := driver.ends_of_refresh_eq later epoch _ refreshed
  cases ways with
  | built snapshot source generation _ load _ _ _ _ install =>
    cases install
    exact ⟨snapshot, source, _, load, rfl, rfl, rfl, rfl⟩

end RefreshDriver

namespace Simulation
variable {σ : Type}

theorem refreshTimes_bookings [SnapshotSource σ] (simulation : Simulation σ) (node : Option NodeId)
    (event : Event) (other : ∀ epoch, event ≠ .timer (.refresh epoch)) :
    refreshTimes (simulation.bookings node event) = [] := by
  apply refreshTimes_eq_nil
  intro booking booked epoch same
  rcases simulation.copy_or_sequel_of_mem_bookings node event booking booked with
    ⟨_, _, _, _, _, _, rfl⟩ | sequel
  · cases same
  · rcases simulation.event_of_sequels event booking sequel with ⟨epoch, _, refresh, _⟩ | ⟨_, _, burst⟩
    · exact other epoch refresh
    · cases burst.symm.trans same

theorem refreshTimes_bookings_refresh [SnapshotSource σ] (simulation : Simulation σ)
    (node : Option NodeId) (epoch : Nat) (outcome : RefreshOutcome) (timers : List TimerRequest)
    (driver : RefreshDriver σ)
    (refreshed : simulation.driver.refresh epoch = (.ok (outcome, timers), driver)) :
    refreshTimes (simulation.bookings node (.timer (.refresh epoch))) =
      (simulation.driver.nextEpoch? epoch).toList.map fun next =>
        (simulation.now + simulation.driver.config.interval, next) := by
  obtain ⟨_, _, stale, _, _, _, _, rfl⟩ :=
    simulation.driver.exists_snapshot_of_refresh driver epoch outcome timers refreshed
  rw [simulation.bookings_of_ok node _ [] rfl]
  simp only [sequels, refreshed, RefreshDriver.timers, List.filterMap_nil, List.nil_append,
    List.map_append, refreshTimes_append, List.map_map]
  rw [refreshTimes_eq_nil _ (by simp), List.nil_append]
  cases simulation.driver.nextEpoch? epoch with
  | none => rfl
  | some next => rfl

end Simulation

section
variable {σ : Type}

def Event.IsPacket (event : Event) : Prop := event.priority = .network ∨ event.priority = .traffic

/-- The run is in the state of a refresh in the log. At most stale link bindings are gone. -/
def Simulation.InForce (log : List (Moment σ)) (simulation : Simulation σ) (time : Nat) : Prop :=
  ∃ refreshed ∈ log, refreshed.key.time = time ∧ refreshed.event = .timer (.refresh time) ∧
    refreshed.after.driver.bindings.Sheds simulation.driver.bindings ∧
    simulation.driver =
      { refreshed.after.driver with bindings := simulation.driver.bindings }

structure Moment.Served (config : RefreshConfig) (log : List (Moment σ)) (moment : Moment σ)
    (index : Nat) : Prop where
  due : config.Due index
  past : index * config.interval ≤ moment.key.time
  latest (later : Nat) (due : config.Due later) (past : later * config.interval ≤ moment.key.time) :
    later ≤ index
  inForce : moment.before.InForce log (index * config.interval)

theorem Simulation.InForce.append (log : List (Moment σ)) (simulation : Simulation σ) (time : Nat)
    (inForce : simulation.InForce log time) (moment : Moment σ) :
    simulation.InForce (log ++ [moment]) time := by
  obtain ⟨refreshed, listed, facts⟩ := inForce
  exact ⟨refreshed, List.mem_append_left _ listed, facts⟩

theorem Moment.Served.append (config : RefreshConfig) (log : List (Moment σ)) (moment : Moment σ)
    (index : Nat) (served : moment.Served config log index) (other : Moment σ) :
    moment.Served config (log ++ [other]) index :=
  ⟨served.due, served.past, served.latest, served.inForce.append _ _ _ other⟩

/-- The run has done the given number of refreshes, each at its time, and the next one waits. Every
packet met the state of the refresh in whose time it fell. -/
structure Paced (config : RefreshConfig) (log : List (Moment σ)) (simulation : Simulation σ)
    (done : Nat) : Prop where
  setting : simulation.driver.config = config
  refreshes : refreshesOf log = (List.range done).map fun index =>
    (index * config.interval, index * config.interval)
  past : ∀ index < done, config.Due index ∧ index * config.interval ≤ simulation.now
  waiting : refreshTimes simulation.queue.booked = config.upcoming done
  inForce : ∀ index, done = index + 1 → simulation.InForce log (index * config.interval)
  served : ∀ moment ∈ log, moment.event.IsPacket → ∃ index < done, moment.Served config log index

end

theorem eq_of_perm_upcoming (config : RefreshConfig) (index : Nat) (times : List (Nat × Nat))
    (perm : times.Perm (config.upcoming index)) : times = config.upcoming index := by
  unfold RefreshConfig.upcoming at perm ⊢
  split at perm
  · rename_i due
    rw [if_pos due]
    exact List.perm_singleton.1 perm
  · rename_i due
    rw [if_neg due]
    exact List.perm_nil.1 perm

theorem Simulation.inForce_handle {σ : Type} [SnapshotSource σ] (log : List (Moment σ))
    (simulation : Simulation σ) (time : Nat) (inForce : simulation.InForce log time)
    (node : Option NodeId) (event : Event) (other : ∀ epoch, event ≠ .timer (.refresh epoch)) :
    (simulation.handle node event).2.InForce log time := by
  obtain ⟨refreshed, listed, when, which, sheds, driver⟩ := inForce
  refine ⟨refreshed, listed, when, which, ?_⟩
  rw [simulation.driver_handle node event]
  cases event with
  | timer timer =>
    cases timer with
    | refresh epoch => exact absurd rfl (other epoch)
    | unbind binding =>
      refine ⟨LinkBindings.sheds_unbind _ _ sheds binding, ?_⟩
      dsimp only [RefreshDriver.unbind]
      rw [driver]
  | burst id => exact ⟨sheds, driver⟩
  | arrival packet interface => exact ⟨sheds, driver⟩

theorem exists_refresh_waiting (queue : EventQueue) (time epoch : Nat)
    (member : (time, epoch) ∈ refreshTimes queue.booked) :
    ∃ entry ∈ queue.waiting, entry.1.time = time ∧ entry.2 = .timer (.refresh epoch) := by
  obtain ⟨booking, booked, found⟩ := List.mem_filterMap.1 member
  obtain ⟨⟨key, event⟩, waits, rfl⟩ := List.mem_map.1 booked
  simp only [Booking.refresh?, Booking.ofEntry] at found
  split at found
  · cases found
    exact ⟨_, waits, rfl, rfl⟩
  · cases found

theorem not_refresh_of_isPacket (event : Event) (packet : event.IsPacket) (epoch : Nat) :
    event ≠ .timer (.refresh epoch) := by
  rintro rfl
  simp [Event.IsPacket, Event.priority] at packet

namespace Paced
variable {σ : Type} (config : RefreshConfig) (log : List (Moment σ))
  (simulation later : Simulation σ) (done : Nat) (paced : Paced config log simulation done)
  (ordered : simulation.queue.Ordered) (horizon : Nat) (key : EventKey) (event : Event)
  (queue : EventQueue) (popped : simulation.queue.Popped horizon key event queue)
include paced popped

theorem refreshTimes_pop (other : ∀ epoch, event ≠ .timer (.refresh epoch)) :
    refreshTimes queue.booked = config.upcoming done := by
  apply eq_of_perm_upcoming
  have times := popped.booked.filterMap Booking.refresh?
  have none := refresh?_eq_none (.ofEntry (key, event)) other
  rw [List.filterMap_cons_none none] at times
  exact paced.waiting ▸ times.symm

theorem eq_of_pop_refresh (epoch : Nat) (refresh : event = .timer (.refresh epoch)) :
    config.Due done ∧ key.time = done * config.interval ∧ epoch = done * config.interval ∧
      refreshTimes queue.booked = [] := by
  have times := popped.booked.filterMap Booking.refresh?
  have found : (Booking.ofEntry (key, event)).refresh? = some (key.time, epoch) := by
    rw [refresh]
    rfl
  rw [List.filterMap_cons_some found] at times
  have waiting := paced.waiting
  unfold refreshTimes RefreshConfig.upcoming at waiting
  rw [waiting] at times
  split at times
  · rename_i due
    have single := List.perm_singleton.1 times.symm
    simp only [List.cons.injEq, Prod.mk.injEq] at single
    exact ⟨due, single.1.1, single.1.2, single.2⟩
  · cases List.nil_perm.1 times

include ordered

theorem served_pop (packet : event.IsPacket) (result : Except SimulationError Unit) :
    ∃ index < done, Moment.Served config log
      ⟨key, event, simulation.pop event queue, result, later⟩ index := by
  obtain ⟨inOrder, started, ranked⟩ :=
    simulation.queue.ordered_of_popped queue ordered horizon key event popped
  have rank : 1 < key.priority.rank := by
    rw [ranked]
    rcases packet with network | traffic
    · rw [network]
      decide
    · rw [traffic]
      decide
  -- The refresh that waits has not come out, so the packet is before it.
  have before (due : config.Due done) : key.time < done * config.interval := by
    have times := paced.refreshTimes_pop _ _ _ _ _ _ _ _ popped (not_refresh_of_isPacket event packet)
    rw [RefreshConfig.upcoming, if_pos due] at times
    obtain ⟨entry, waits, time, refresh⟩ := exists_refresh_waiting queue (done * config.interval)
      (done * config.interval) (by rw [times]; exact List.mem_cons_self)
    obtain ⟨notAfter, lower⟩ := popped.first entry waits
    rw [inOrder.ranked entry waits, refresh, time] at lower
    refine Nat.lt_of_le_of_ne (time ▸ notAfter) fun same => ?_
    exact absurd (lower same) (Nat.not_le_of_lt rank)
  cases done with
  | zero => exact absurd (before (.inl rfl)) (by omega)
  | succ index =>
    obtain ⟨due, past⟩ := paced.past index (Nat.lt_succ_self index)
    refine ⟨index, Nat.lt_succ_self index, due, Nat.le_trans past started, fun other due past => ?_,
      paced.inForce index rfl⟩
    by_contra after
    have reached : (index + 1) * config.interval ≤ other * config.interval :=
      Nat.mul_le_mul_right _ (by omega)
    have early := before (due.earlier _ _ _ (by omega))
    dsimp only at past
    omega

theorem step_other [SnapshotSource σ] (other : ∀ epoch, event ≠ .timer (.refresh epoch))
    (result : Except SimulationError Unit)
    (handled : (simulation.pop event queue).handle key.node event = (result, later)) :
    Paced config (log ++ [⟨key, event, simulation.pop event queue, result, later⟩]) later done := by
  obtain ⟨inOrder, started, _⟩ :=
    simulation.queue.ordered_of_popped queue ordered horizon key event popped
  have gains := (simulation.pop event queue).gains_handle inOrder key.node event
  have setting := (simulation.pop event queue).setting_handle key.node event
  have inForce := fun time inForce => (simulation.pop event queue).inForce_handle log time inForce
    key.node event other
  rw [handled] at gains setting inForce
  have now : later.now = key.time := gains.now.trans popped.now
  constructor
  case setting => exact (congrArg Prod.fst setting).trans paced.setting
  case refreshes =>
    rw [refreshesOf_append, refresh?_eq_none _ other, Option.toList_none, List.append_nil]
    exact paced.refreshes
  case past =>
    intro index before
    obtain ⟨due, past⟩ := paced.past index before
    exact ⟨due, by rw [now]; exact Nat.le_trans past started⟩
  case waiting =>
    apply eq_of_perm_upcoming
    have times := gains.booked.filterMap Booking.refresh?
    rw [List.filterMap_append] at times
    have none := (simulation.pop event queue).refreshTimes_bookings key.node event other
    unfold refreshTimes at none
    rw [none, List.nil_append] at times
    exact paced.refreshTimes_pop _ _ _ _ _ _ _ _ popped other ▸ times
  case inForce =>
    intro index same
    exact (inForce _ (paced.inForce index same)).append _ _ _ _
  case served =>
    intro moment member packet
    rcases List.mem_append.1 member with before | here
    · obtain ⟨index, within, served⟩ := paced.served moment before packet
      exact ⟨index, within, served.append _ _ _ _ _⟩
    · obtain rfl := List.mem_singleton.1 here
      obtain ⟨index, within, served⟩ := paced.served_pop config log simulation later done ordered
        horizon key event queue popped packet result
      exact ⟨index, within, served.append _ _ _ _ _⟩

/-- A refresh that succeeds sets the next one. -/
theorem step_refresh [SnapshotSource σ]
    (epoch : Nat) (refresh : event = .timer (.refresh epoch))
    (handled : (simulation.pop event queue).handle key.node event = (.ok (), later)) :
    Paced config (log ++ [⟨key, event, simulation.pop event queue, .ok (), later⟩]) later
      (done + 1) := by
  obtain ⟨inOrder, started, _⟩ :=
    simulation.queue.ordered_of_popped queue ordered horizon key event popped
  obtain ⟨due, time, rfl, none⟩ :=
    paced.eq_of_pop_refresh config log simulation done horizon key event queue popped epoch refresh
  have gains := (simulation.pop event queue).gains_handle inOrder key.node event
  have setting := (simulation.pop event queue).setting_handle key.node event
  obtain ⟨outcome, timers, driver, refreshed⟩ :=
    (simulation.pop event queue).ok_of_handle_refresh later key.node event _ refresh handled
  have booked := (simulation.pop event queue).refreshTimes_bookings_refresh key.node
    (done * config.interval) outcome timers driver refreshed
  have next := simulation.driver.nextEpoch?_eq done
  rw [paced.setting] at next
  rw [handled] at gains setting
  rw [← refresh] at booked
  have now : later.now = done * config.interval := gains.now.trans (popped.now.trans time)
  constructor
  case setting => exact (congrArg Prod.fst setting).trans paced.setting
  case refreshes =>
    rw [refreshesOf_append, paced.refreshes, List.range_succ, List.map_append]
    simp [Moment.booking, Booking.ofEntry, Booking.refresh?, time, refresh]
  case past =>
    intro index before
    rw [now]
    rcases Nat.lt_succ_iff_lt_or_eq.1 before with earlier | rfl
    · obtain ⟨due, past⟩ := paced.past index earlier
      exact ⟨due, Nat.le_trans past (time ▸ started)⟩
    · exact ⟨due, Nat.le_refl _⟩
  case waiting =>
    apply eq_of_perm_upcoming
    have times := gains.booked.filterMap Booking.refresh?
    rw [List.filterMap_append] at times
    have sequel : ((simulation.driver.nextEpoch? (done * config.interval)).toList.map fun next =>
        (queue.now + simulation.driver.config.interval, next)) = config.upcoming (done + 1) := by
      rw [next, popped.now, time, paced.setting, RefreshConfig.upcoming, ← Nat.succ_mul]
      split
      · rfl
      · rfl
    unfold refreshTimes at booked none
    rw [booked] at times
    rw [← sequel, ← List.append_nil (List.map _ _), ← none]
    exact times
  case inForce =>
    intro index same
    obtain rfl := Nat.succ.inj same
    exact ⟨_, List.mem_append_right _ List.mem_cons_self, time, refresh, LinkBindings.sheds_refl _, rfl⟩
  case served =>
    intro moment member packet
    rcases List.mem_append.1 member with before | here
    · obtain ⟨index, within, served⟩ := paced.served moment before packet
      exact ⟨index, Nat.lt_succ_of_lt within, served.append _ _ _ _ _⟩
    · obtain rfl := List.mem_singleton.1 here
      exact absurd refresh (not_refresh_of_isPacket _ packet _)

end Paced

namespace Simulation
variable {σ : Type}

theorem paced_start (config : SimulationConfig) (source : σ) (roles : NodeRoles)
    (requests : List Request) (positions : BitPositions) :
    Paced config.refresh [] (start config source roles requests positions) 0 where
  setting := rfl
  refreshes := rfl
  past := by simp
  waiting := by
    apply eq_of_perm_upcoming
    have times := (booked_start config source roles requests positions).filterMap
      Booking.refresh?
    have bursts : refreshTimes ((requests.filter (·.duration ≠ 0)).map fun request =>
        ⟨some request.source, request.start, .burst request.id⟩) = [] := by
      refine refreshTimes_eq_nil _ fun booking listed epoch => ?_
      obtain ⟨request, _, rfl⟩ := List.mem_map.1 listed
      simp
    have first : Booking.refresh? ⟨none, 0, .timer (.refresh 0)⟩ = some (0, 0) := rfl
    unfold refreshTimes at bursts
    rw [List.filterMap_cons_some first, bursts] at times
    rw [RefreshConfig.upcoming, if_pos (.inl rfl), Nat.zero_mul]
    exact times
  inForce := by simp
  served := by simp

variable [SnapshotSource σ]

theorem paced_of_course (config : SimulationConfig) (source : σ) (roles : NodeRoles)
    (requests : List Request) (positions : BitPositions)
    (log : List (Moment σ)) (simulation : Simulation σ)
    (course : (start config source roles requests positions).Course log simulation)
    (flawless : Flawless log) : ∃ done, Paced config.refresh log simulation done := by
  have ordered := (gains_start config source roles requests positions).ordered
  induction course with
  | start => exact ⟨0, paced_start config source roles requests positions⟩
  | step log simulation later horizon key event queue result earlier _ popped handled ih =>
    obtain ⟨before, rfl⟩ := (flawless_append log _).1 flawless
    obtain ⟨done, paced⟩ := ih before
    have inOrder := (ordered_of_course _ simulation log ordered earlier).1
    have out := simulation.queue.popped_of_popUntil queue horizon key event popped
    by_cases refresh : ∃ epoch, event = .timer (.refresh epoch)
    · obtain ⟨epoch, refresh⟩ := refresh
      exact ⟨done + 1, paced.step_refresh _ _ _ _ _ inOrder horizon key event queue out epoch
        refresh handled⟩
    · push Not at refresh
      exact ⟨done, paced.step_other _ _ _ _ _ inOrder horizon key event queue out refresh _ handled⟩
  | rest log simulation horizon _ _ ih =>
    obtain ⟨done, paced⟩ := ih flawless
    refine ⟨done, { paced with past := fun index before => ?_ }⟩
    obtain ⟨due, past⟩ := paced.past index before
    exact ⟨due, Nat.le_trans past (Nat.le_max_left _ _)⟩

theorem InForce.exists_refresh (log : List (Moment σ)) (proper : ∀ moment ∈ log, moment.Proper)
    (flawless : Flawless log) (simulation : Simulation σ) (time : Nat)
    (inForce : simulation.InForce log time) :
    ∃ (driver : RefreshDriver σ) (outcome : RefreshOutcome) (timers : List TimerRequest)
      (later : RefreshDriver σ), driver.refresh time = (.ok (outcome, timers), later) ∧
      driver.setting = simulation.driver.setting ∧
      later.bindings.Sheds simulation.driver.bindings ∧
      simulation.driver = { later with bindings := simulation.driver.bindings } := by
  obtain ⟨refreshed, listed, _, which, sheds, same⟩ := inForce
  have handled := (proper refreshed listed).handled
  rw [flawless refreshed listed] at handled
  obtain ⟨outcome, timers, later, succeeds⟩ :=
    refreshed.before.ok_of_handle_refresh _ _ _ time which handled
  have after := refreshed.before.driver_handle refreshed.key.node refreshed.event
  have setting := refreshed.before.setting_handle refreshed.key.node refreshed.event
  rw [handled, which] at after
  dsimp only at after
  rw [succeeds] at after
  rw [handled] at setting
  rw [after] at sheds same
  refine ⟨refreshed.before.driver, outcome, timers, later, succeeds, ?_, sheds, same⟩
  rw [← setting, after, same]
  rfl

theorem InForce.exists_snapshot (log : List (Moment σ)) (proper : ∀ moment ∈ log, moment.Proper)
    (flawless : Flawless log) (simulation : Simulation σ) (time : Nat)
    (inForce : simulation.InForce log time) :
    ∃ snapshot source later, SnapshotSource.load (σ := σ) source time = (.ok snapshot, later) ∧
      simulation.driver.snapshot = some snapshot ∧ simulation.driver.lastEpoch = some time ∧
      simulation.driver.state = match simulation.driver.nextEpoch? time with
        | none => .idle
        | some next => .scheduled next := by
  obtain ⟨driver, outcome, timers, later, succeeds, setting, _, same⟩ :=
    inForce.exists_refresh log proper flawless simulation time
  obtain ⟨snapshot, source, stale, load, held, last, state, _⟩ :=
    driver.exists_snapshot_of_refresh later time outcome timers succeeds
  have next : driver.nextEpoch? time = simulation.driver.nextEpoch? time := by
    have config : driver.config = simulation.driver.config := congrArg Prod.fst setting
    unfold RefreshDriver.nextEpoch?
    rw [config]
  rw [next] at state
  have kept : simulation.driver.snapshot = later.snapshot ∧
      simulation.driver.lastEpoch = later.lastEpoch ∧ simulation.driver.state = later.state := by
    rw [same]
    exact ⟨rfl, rfl, rfl⟩
  exact ⟨snapshot, _, source, load, kept.1.trans held, kept.2.1.trans last, kept.2.2.trans state⟩

/-- In a run without errors the refreshes are those that are due, each at its time; as long as
another one is due, its timer is the only one that waits; and every packet meets the state of the
last refresh that is due by then. -/
theorem refreshes_of_course (config : SimulationConfig) (source : σ) (roles : NodeRoles)
    (requests : List Request) (positions : BitPositions)
    (log : List (Moment σ)) (simulation : Simulation σ)
    (course : (start config source roles requests positions).Course log simulation)
    (flawless : Flawless log) :
    ∃ done, (refreshesOf log = (List.range done).map fun index =>
        (index * config.refresh.interval, index * config.refresh.interval)) ∧
      (∀ index < done, config.refresh.Due index) ∧
      (∀ horizon, simulation.queue.popUntil horizon = none → ∀ index, config.refresh.Due index →
        index * config.refresh.interval ≤ horizon → index < done) ∧
      (0 < done → refreshTimes simulation.queue.booked = match simulation.driver.state with
        | .scheduled epoch => [(epoch, epoch)]
        | .idle => []) ∧
      ∀ moment ∈ log, moment.event.IsPacket →
        ∃ index < done, moment.Served config.refresh log index ∧
          ∃ snapshot, moment.before.driver.snapshot = some snapshot ∧
            moment.before.driver.lastEpoch = some (index * config.refresh.interval) ∧
            (SnapshotSource.Faithful σ → snapshot.epoch = index * config.refresh.interval) := by
  have ordered := (gains_start config source roles requests positions).ordered
  obtain ⟨_, proper⟩ := ordered_of_course _ simulation log ordered course
  obtain ⟨done, paced⟩ := paced_of_course config source roles requests positions log simulation
    course flawless
  refine ⟨done, paced.refreshes, fun index before => (paced.past index before).1, ?_, ?_, ?_⟩
  · intro horizon finished index due reached
    by_contra later
    have before : done * config.refresh.interval ≤ index * config.refresh.interval :=
      Nat.mul_le_mul_right _ (Nat.le_of_not_lt later)
    have pending := due.earlier _ done _ (Nat.le_of_not_lt later)
    have waiting := paced.waiting
    rw [RefreshConfig.upcoming, if_pos pending] at waiting
    obtain ⟨entry, waits, time, _⟩ := exists_refresh_waiting simulation.queue _ _
      (by rw [waiting]; exact List.mem_cons_self)
    have after := (simulation.queue.popUntil_eq_none horizon).1 finished entry waits
    omega
  · intro some
    obtain ⟨index, rfl⟩ := Nat.exists_eq_add_of_lt some
    obtain ⟨_, _, _, _, _, _, state⟩ := (paced.inForce _ rfl).exists_snapshot log proper flawless
    have next := simulation.driver.nextEpoch?_eq (0 + index)
    rw [paced.setting] at next
    rw [paced.waiting, state, next, RefreshConfig.upcoming]
    split
    · rfl
    · rfl
  · intro moment member packet
    obtain ⟨index, before, served⟩ := paced.served moment member packet
    obtain ⟨snapshot, _, _, load, held, last, _⟩ :=
      served.inForce.exists_snapshot log proper flawless
    exact ⟨index, before, served, snapshot, held, last, fun faithful => faithful _ _ _ _ load⟩

theorem refreshes_of_course_diamond :
    ∃ log simulation, diamondRun.Course log simulation ∧ Flawless log ∧
      refreshesOf log = [(0, 0), (10, 10), (20, 20)] ∧
      simulation.driver.state = .idle ∧ refreshTimes simulation.queue.booked = [] ∧
      (∃ moment ∈ log, moment.event.IsPacket ∧ moment.key.time = 12) ∧
      ∀ moment ∈ log, moment.event.IsPacket → moment.key.time = 12 →
        moment.before.driver.lastEpoch = some 10 := by
  have course := course_logUntil diamondRun diamondRun [] .start 30 100 (by decide)
  have flawless : Flawless (diamondRun.logUntil 30 100).1 :=
    flawless_of_all _ (by decide +kernel)
  have state : (diamondRun.logUntil 30 100).2.driver.state = .idle := by decide +kernel
  have packet : (diamondRun.logUntil 30 100).1.any
      (fun moment => moment.event.priority = .network ∧ moment.key.time = 12) = true := by
    decide +kernel
  have after : (diamondRun.logUntil 30 100).2.queue.waiting.all (30 < ·.1.time) = true := by
    decide +kernel
  obtain ⟨done, times, due, reached, waiting, served⟩ :=
    refreshes_of_course _ (.diamond 10 : SnapshotPlan) (.terrestrial 4) diamondSchedule _
      _ _ course flawless
  have three : done = 3 := by
    have last := reached 30 ((EventQueue.popUntil_eq_none _ _).2 (by simpa using after)) 2 (by decide)
      (by decide)
    by_contra other
    exact absurd (due 3 (by omega)) (by decide)
  subst three
  refine ⟨_, _, course, flawless, times, state, ?_, ?_, fun moment member packet time => ?_⟩
  · rw [waiting (by decide), state]
  · obtain ⟨moment, member, found⟩ := List.any_eq_true.1 packet
    obtain ⟨network, time⟩ := of_decide_eq_true found
    exact ⟨moment, member, .inl network, time⟩
  · obtain ⟨index, _, served, _, _, last, _⟩ := served moment member packet
    have past : index * 10 ≤ 12 := time ▸ served.past
    have latest : 1 ≤ index := served.latest 1 (by decide) (by rw [time]; decide)
    obtain rfl : index = 1 := by omega
    exact last

end Simulation
end Multicast
