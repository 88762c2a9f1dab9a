import Multicast.Proofs.Simulation.Bindings

/-!
The grace of stale link bindings. A refresh sets a timer for the removal of each binding it leaves
newly stale, and nothing takes that timer back. Main statements: a binding that is removed was asked
to be removed a grace before, by the refresh right after one that needed it; if the grace is at most
two intervals, no refresh since then has needed it; and if it is longer, a binding that a refresh has
renewed may go right after it has become stale again.
-/

namespace Multicast
open Std

namespace EventQueue

/-- The queue has taken the removals of the newly stale bindings and then at most one refresh. -/
structure Resets (queue later : EventQueue) (config : RefreshConfig) (bindings : LinkBindings)
    (removals next : List (EventKey × Event)) : Prop where
  waiting : later.waiting.Perm (removals ++ next ++ queue.waiting)
  removing : ∀ entry ∈ removals, entry.1.node = none ∧ entry.1.time = queue.now + config.grace ∧
    ∃ binding ∈ bindings.newlyStale, entry.2 = .timer (.unbind binding)
  refreshing : ∀ entry ∈ next, entry.1.node = none ∧ entry.1.time = queue.now + config.interval ∧
    ∃ epoch, entry.2 = .timer (.refresh epoch)
  single : ∀ one ∈ next, ∀ other ∈ next, one = other
  fresh : ∀ entry ∈ next, queue.scheduled < entry.1.sequence
  increasing : ∀ removal ∈ removals, ∀ refresh ∈ next, removal.1.sequence < refresh.1.sequence

section
variable (queue later : EventQueue) (config : RefreshConfig) (bindings : LinkBindings)
  (removals next : List (EventKey × Event))
  (resets : queue.Resets later config bindings removals next) (entry : EventKey × Event)
  (waits : entry ∈ later.waiting)
include resets waits

theorem Resets.mem_of_unbind (binding : LinkBinding) (which : entry.2 = .timer (.unbind binding)) :
    entry ∈ removals ∨ entry ∈ queue.waiting := by
  cases List.mem_append.1 (resets.waiting.mem_iff.1 waits) with
  | inr old => exact .inr old
  | inl new =>
    cases List.mem_append.1 new with
    | inl removal => exact .inl removal
    | inr refresh =>
      obtain ⟨_, _, _, refreshes⟩ := resets.refreshing entry refresh
      cases which.symm.trans refreshes

theorem Resets.mem_of_refresh (epoch : Nat) (which : entry.2 = .timer (.refresh epoch)) :
    entry ∈ next ∨ entry ∈ queue.waiting := by
  cases List.mem_append.1 (resets.waiting.mem_iff.1 waits) with
  | inr old => exact .inr old
  | inl new =>
    cases List.mem_append.1 new with
    | inr refresh => exact .inl refresh
    | inl removal =>
      obtain ⟨_, _, _, _, unbinds⟩ := resets.removing entry removal
      cases which.symm.trans unbinds

end

end EventQueue

section
variable {σ : Type}

def Moment.refreshes (moment : Moment σ) : Bool :=
  match moment.event, moment.result with
  | .timer (.refresh _), .ok () => true
  | _, _ => false

theorem Moment.refreshes_eq_true (moment : Moment σ) :
    moment.refreshes = true ↔
      (∃ epoch, moment.event = .timer (.refresh epoch)) ∧ moment.result = .ok () := by
  unfold refreshes
  split
  · rename_i epoch event result
    simp [event, result]
  · rename_i other
    constructor
    · intro absurd
      cases absurd
    · intro both
      obtain ⟨⟨epoch, event⟩, result⟩ := both
      exact absurd result (other epoch event)

def renewals (log : List (Moment σ)) : List (Moment σ) := log.filter Moment.refreshes

theorem renewals_append (log : List (Moment σ)) (moment : Moment σ) :
    renewals (log ++ [moment]) =
      renewals log ++ if moment.refreshes then [moment] else [] := by
  unfold renewals
  rw [List.filter_append]
  cases renews : moment.refreshes with
  | true => simp [renews]
  | false => simp [renews]

structure Moment.Removes (moment : Moment σ) (binding : LinkBinding) : Prop where
  event : moment.event = .timer (.unbind binding)
  bound : binding ∈ moment.before.driver.bindings.bound
  gone : binding ∉ moment.after.driver.bindings.bound

/-- A binding that is removed has been stale for the grace: the last refresh that needed it was
followed by another one a grace before its removal or earlier. -/
def Graced (log : List (Moment σ)) (grace : Nat) : Prop :=
  ∀ past removal rest binding, log = past ++ removal :: rest → removal.Removes binding →
    ∃ earlier needed between, renewals past = earlier ++ needed :: between ∧
      needed.after.driver.NeedsNow binding ∧
      (∀ later ∈ between, ¬later.after.driver.NeedsNow binding) ∧
      ∃ asked ∈ between, asked.key.time + grace ≤ removal.key.time

/-- Of the refreshes, one needed the binding and the next one did not, and a grace after that one
comes the given time, which is after all refreshes since. -/
def Asked (refreshes : List (Moment σ)) (grace : Nat) (binding : LinkBinding) (time : Nat) : Prop :=
  ∃ earlier needed asked between, refreshes = earlier ++ needed :: asked :: between ∧
    needed.after.driver.NeedsNow binding ∧ ¬asked.after.driver.NeedsNow binding ∧
    asked.key.time + grace = time ∧ ∀ later ∈ between, later.key.time < time

theorem asked_of_getLast? (refreshes : List (Moment σ)) (grace : Nat) (binding : LinkBinding)
    (last moment : Moment σ) (latest : refreshes.getLast? = some last)
    (needs : last.after.driver.NeedsNow binding) (idle : ¬moment.after.driver.NeedsNow binding) :
    Asked (refreshes ++ [moment]) grace binding (moment.key.time + grace) := by
  obtain ⟨earlier, rfl⟩ := List.getLast?_eq_some_iff.1 latest
  exact ⟨earlier, last, moment, [], by simp, needs, idle, rfl, by simp⟩

theorem Asked.append (refreshes : List (Moment σ)) (grace : Nat) (binding : LinkBinding) (time : Nat)
    (asked : Asked refreshes grace binding time) (moment : Moment σ)
    (early : moment.key.time < time) : Asked (refreshes ++ [moment]) grace binding time := by
  obtain ⟨earlier, needed, stopped, between, rfl, needs, idle, due, before⟩ := asked
  refine ⟨earlier, needed, stopped, between ++ [moment], by simp, needs, idle, due, ?_⟩
  exact List.forall_mem_append.2 ⟨before, List.forall_mem_singleton.2 early⟩

/-- Between refreshes an interval apart, at most one fits into a grace of two intervals. So what the
last one does not need, none has needed since the removal was asked for. -/
theorem Asked.stays_idle (refreshes : List (Moment σ)) (grace interval : Nat)
    (short : grace ≤ 2 * interval)
    (spaced : refreshes.Pairwise fun one other => one.key.time + interval ≤ other.key.time)
    (binding : LinkBinding) (time : Nat) (asked : Asked refreshes grace binding time)
    (unneeded : ∀ last, refreshes.getLast? = some last → ¬last.after.driver.NeedsNow binding) :
    ∃ earlier needed between, refreshes = earlier ++ needed :: between ∧
      needed.after.driver.NeedsNow binding ∧
      (∀ later ∈ between, ¬later.after.driver.NeedsNow binding) ∧
      ∃ asked ∈ between, asked.key.time + grace ≤ time := by
  obtain ⟨earlier, needed, stopped, between, rfl, needs, idle, due, before⟩ := asked
  refine ⟨earlier, needed, stopped :: between, rfl, needs, ?_, stopped, List.mem_cons_self,
    Nat.le_of_eq due⟩
  intro again listed needsAgain
  cases List.mem_cons.1 listed with
  | inl same => exact idle (same ▸ needsAgain)
  | inr later =>
    obtain ⟨sooner, others, rfl⟩ := List.append_of_mem later
    cases others.eq_nil_or_concat with
    | inl last =>
      subst last
      have latest : (earlier ++ needed :: stopped :: (sooner ++ [again])).getLast? = some again :=
        List.getLast?_eq_some_iff.2 ⟨earlier ++ needed :: stopped :: sooner, by simp⟩
      exact unneeded again latest needsAgain
    | inr more =>
      -- The refresh that stopped needing it again came two intervals after the first, at the earliest.
      obtain ⟨most, final, rfl⟩ := more
      obtain ⟨_, spaced, _⟩ := List.pairwise_append.1 spaced
      obtain ⟨following, spaced⟩ := List.pairwise_cons.1 (List.pairwise_cons.1 spaced).2
      have first := following again (by simp)
      have second := (List.pairwise_cons.1 (List.pairwise_append.1 spaced).2.1).1 final (by simp)
      have early := before final (by simp)
      omega

end

namespace Simulation
variable {σ : Type}

section
variable [SnapshotSource σ] (simulation : Simulation σ) (node : Option NodeId) (event : Event)

theorem timer_of_handle (ordered : simulation.queue.Ordered) (entry : EventKey × Event)
    (waits : entry ∈ (simulation.handle node event).2.queue.waiting) (timer : Timer)
    (which : entry.2 = .timer timer) :
    entry ∈ simulation.queue.waiting ∨ ∃ epoch outcome timers driver,
      event = .timer (.refresh epoch) ∧
        simulation.driver.refresh epoch = (.ok (outcome, timers), driver) := by
  have gains := simulation.gains_handle ordered node event
  cases List.mem_append.1 (gains.waiting.mem_iff.1 waits) with
  | inr before => exact .inl before
  | inl new =>
    right
    have listed : Booking.ofEntry entry ∈ simulation.bookings node event := by
      rw [← Booking.map_ofEntry_entries simulation.queue.scheduled (simulation.bookings node event)]
      exact List.mem_map_of_mem new
    cases simulation.copy_or_sequel_of_mem_bookings node event _ listed with
    | inl copied =>
      obtain ⟨_, _, _, _, _, _, same⟩ := copied
      cases which.symm.trans (congrArg Booking.event same)
    | inr sequel =>
      cases simulation.event_of_sequels event _ sequel with
      | inr burst =>
        obtain ⟨_, _, same⟩ := burst
        cases which.symm.trans same
      | inl refresh =>
        obtain ⟨epoch, _, rfl, _⟩ := refresh
        cases refreshed : simulation.driver.refresh epoch with
        | mk result driver =>
          cases result with
          | error error => simp [sequels, refreshed] at sequel
          | ok result => exact ⟨epoch, result.1, result.2, driver, rfl, refreshed⟩

theorem exists_resets (ordered : simulation.queue.Ordered) (epoch : Nat)
    (outcome : RefreshOutcome) (timers : List TimerRequest) (driver : RefreshDriver σ)
    (refreshed : simulation.driver.refresh epoch = (.ok (outcome, timers), driver)) :
    ∃ removals next, simulation.queue.Resets
      (simulation.handle node (.timer (.refresh epoch))).2.queue simulation.driver.config
      driver.bindings removals next := by
  have waiting := (simulation.queue.gains_setTimers ordered timers).waiting
  have later := Booking.lt_of_mem_entries simulation.queue.scheduled (timers.map fun asked =>
    ⟨none, simulation.queue.now + asked.delay, .timer asked.timer⟩)
  have increasing := Booking.ascending_entries simulation.queue.scheduled (timers.map fun asked =>
    ⟨none, simulation.queue.now + asked.delay, .timer asked.timer⟩)
  have booked := Booking.map_ofEntry_entries simulation.queue.scheduled (timers.map fun asked =>
    ⟨none, simulation.queue.now + asked.delay, .timer asked.timer⟩)
  generalize Booking.entries simulation.queue.scheduled _ = fresh at waiting later increasing booked
  rw [simulation.driver.timers_of_refresh driver epoch outcome timers refreshed,
    RefreshDriver.timers, List.map_append, List.map_map, List.map_map] at booked
  obtain ⟨removals, next, rfl, removing, refreshing⟩ := List.map_eq_append_iff.1 booked
  have queue : (simulation.handle node (.timer (.refresh epoch))).2.queue =
      timers.foldl (fun queue asked => queue.setTimer asked.timer asked.delay) simulation.queue := by
    simp [handle, handleRefresh, refreshed, changeStats]
  refine ⟨removals, next, queue ▸ waiting, ?_, ?_, ?_, ?_, (List.pairwise_append.1 increasing).2.2⟩
  · intro entry listed
    have mapped := List.mem_map_of_mem (f := Booking.ofEntry) listed
    rw [removing] at mapped
    obtain ⟨binding, stale, same⟩ := List.mem_map.1 mapped
    exact ⟨(congrArg Booking.node same).symm, (congrArg Booking.time same).symm, binding, stale,
      (congrArg Booking.event same).symm⟩
  · intro entry listed
    have mapped := List.mem_map_of_mem (f := Booking.ofEntry) listed
    rw [refreshing] at mapped
    obtain ⟨epoch, _, same⟩ := List.mem_map.1 mapped
    exact ⟨(congrArg Booking.node same).symm, (congrArg Booking.time same).symm, epoch,
      (congrArg Booking.event same).symm⟩
  · intro one listed other also
    cases upcoming : simulation.driver.nextEpoch? epoch with
    | none =>
      rw [upcoming] at refreshing
      rw [List.map_eq_nil_iff.1 refreshing] at listed
      cases listed
    | some later =>
      rw [upcoming] at refreshing
      obtain ⟨entry, rfl, _⟩ := List.map_eq_singleton_iff.1 refreshing
      rw [List.mem_singleton.1 listed, List.mem_singleton.1 also]
  · exact fun entry listed => (later entry (List.mem_append_right _ listed)).1

theorem needsNow_of_handle (binding : LinkBinding)
    (idle : ∀ epoch outcome timers driver, event = .timer (.refresh epoch) →
      simulation.driver.refresh epoch ≠ (.ok (outcome, timers), driver)) :
    (simulation.handle node event).2.driver.NeedsNow binding ↔
      simulation.driver.NeedsNow binding := by
  rw [driver_handle]
  cases event with
  | timer timer =>
    cases timer with
    | unbind removed => exact .rfl
    | refresh epoch =>
      dsimp only
      cases refreshed : simulation.driver.refresh epoch with
      | mk result later =>
        cases result with
        | ok result => exact absurd refreshed (idle epoch result.1 result.2 later rfl)
        | error error =>
          obtain ⟨_, _, rfl⟩ := simulation.driver.exists_of_refresh_error later epoch error refreshed
          exact .rfl
  | burst id => exact .rfl
  | arrival packet interface => exact .rfl

end

structure Timed (config : RefreshConfig) (log : List (Moment σ)) (simulation : Simulation σ) :
    Prop where
  bare : ∀ entry ∈ simulation.queue.waiting, ∀ timer, entry.2 = .timer timer → entry.1.node = none
  /-- A removal has been set before the refresh that waits. -/
  numbered : ∀ removal ∈ simulation.queue.waiting, ∀ binding, removal.2 = .timer (.unbind binding) →
    ∀ refresh ∈ simulation.queue.waiting, ∀ epoch, refresh.2 = .timer (.refresh epoch) →
      removal.1.sequence < refresh.1.sequence
  single : ∀ one ∈ simulation.queue.waiting, ∀ epoch, one.2 = .timer (.refresh epoch) →
    ∀ other ∈ simulation.queue.waiting, ∀ epoch, other.2 = .timer (.refresh epoch) → one = other
  spaced : (renewals log).Pairwise fun one other => one.key.time + config.interval ≤ other.key.time
  ahead : ∀ one ∈ renewals log, ∀ refresh ∈ simulation.queue.waiting, ∀ epoch,
    refresh.2 = .timer (.refresh epoch) → one.key.time + config.interval ≤ refresh.1.time
  asked : ∀ entry ∈ simulation.queue.waiting, ∀ binding, entry.2 = .timer (.unbind binding) →
    Asked (renewals log) config.grace binding entry.1.time

namespace Timed
variable {config : RefreshConfig} {log : List (Moment σ)} {simulation : Simulation σ}

theorem mono (timed : Timed config log simulation) (more : List (Moment σ)) (later : Simulation σ)
    (same : renewals more = renewals log)
    (fewer : ∀ entry ∈ later.queue.waiting, ∀ timer, entry.2 = .timer timer →
      entry ∈ simulation.queue.waiting) : Timed config more later where
  bare entry waits timer which := timed.bare entry (fewer entry waits timer which) timer which
  numbered removal waits binding which refresh waits' epoch which' :=
    timed.numbered removal (fewer removal waits _ which) binding which refresh
      (fewer refresh waits' _ which') epoch which'
  single one waits epoch which other waits' epoch' which' :=
    timed.single one (fewer one waits _ which) epoch which other (fewer other waits' _ which') epoch'
      which'
  spaced := by
    rw [same]
    exact timed.spaced
  ahead one listed refresh waits epoch which := by
    rw [same] at listed
    exact timed.ahead one listed refresh (fewer refresh waits _ which) epoch which
  asked entry waits binding which := by
    rw [same]
    exact timed.asked entry (fewer entry waits _ which) binding which

section
variable (timed : Timed config log simulation) (ordered : simulation.queue.Ordered) (horizon : Nat)
  (key : EventKey) (queue : EventQueue) (epoch : Nat)
  (popped : simulation.queue.popUntil horizon = some (key, .timer (.refresh epoch), queue))
include timed popped

theorem not_refresh_of_popUntil (entry : EventKey × Event) (waits : entry ∈ queue.waiting)
    (next : Nat) : entry.2 ≠ .timer (.refresh next) := by
  intro which
  have out := simulation.queue.popped_of_popUntil queue horizon key _ popped
  have same := timed.single _ (out.waiting.mem_iff.2 List.mem_cons_self) epoch rfl entry
    (out.waiting.mem_iff.2 (List.mem_cons_of_mem _ waits)) next which
  have before := simulation.queue.lt_of_popUntil queue horizon key _ popped entry waits
  rw [← same, compare_self] at before
  cases before

include ordered in
/-- A refresh comes before every removal that still waits. At one instant the removal would have come
first, as it was set before the refresh. -/
theorem lt_removal_of_popUntil (removal : EventKey × Event) (waits : removal ∈ queue.waiting)
    (binding : LinkBinding) (which : removal.2 = .timer (.unbind binding)) :
    key.time < removal.1.time := by
  have out := simulation.queue.popped_of_popUntil queue horizon key _ popped
  have own := out.waiting.mem_iff.2 List.mem_cons_self
  have left := out.waiting.mem_iff.2 (List.mem_cons_of_mem _ waits)
  have least := simulation.queue.lt_of_popUntil queue horizon key _ popped removal waits
  refine Nat.lt_of_le_of_ne (EventKey.time_le_of_lt key removal.1 least).1 fun same => ?_
  have priority : key.priority = removal.1.priority := by
    rw [ordered.ranked _ own, ordered.ranked removal left, which]
    rfl
  have node : key.node = removal.1.node := by
    rw [timed.bare _ own _ rfl, timed.bare removal left _ which]
  have lower := timed.numbered removal left binding which _ own epoch rfl
  have higher := EventKey.sequence_lt_of_lt key removal.1 least same priority node
  exact Nat.lt_asymm lower higher

end

theorem step_refresh [SnapshotSource σ] (timed : Timed config log simulation)
    (ordered : simulation.queue.Ordered) (set : simulation.driver.config = config)
    (current : simulation.driver.Current)
    (last : ∀ binding, simulation.driver.NeedsNow binding →
      ∃ last, (renewals log).getLast? = some last ∧ last.after.driver.NeedsNow binding)
    (horizon : Nat) (key : EventKey) (queue : EventQueue) (epoch : Nat)
    (popped : simulation.queue.popUntil horizon = some (key, .timer (.refresh epoch), queue))
    (outcome : RefreshOutcome) (timers : List TimerRequest) (driver : RefreshDriver σ)
    (refreshed : simulation.driver.refresh epoch = (.ok (outcome, timers), driver))
    (later : Simulation σ)
    (handled : (simulation.pop (.timer (.refresh epoch)) queue).handle key.node
      (.timer (.refresh epoch)) = (.ok (), later)) :
    Timed config (log ++ [⟨key, .timer (.refresh epoch),
      simulation.pop (.timer (.refresh epoch)) queue, .ok (), later⟩]) later := by
  have out := simulation.queue.popped_of_popUntil queue horizon key _ popped
  obtain ⟨inOrder, _, _⟩ := simulation.queue.ordered_of_popped queue ordered horizon key _ out
  have left (entry : EventKey × Event) (waits : entry ∈ queue.waiting) :
      entry ∈ simulation.queue.waiting :=
    out.waiting.mem_iff.2 (List.mem_cons_of_mem _ waits)
  obtain ⟨removals, next, resets⟩ := (simulation.pop (.timer (.refresh epoch)) queue).exists_resets
    key.node inOrder epoch outcome timers driver refreshed
  rw [handled] at resets
  have removing := resets.removing
  have refreshing := resets.refreshing
  have now : (simulation.pop (.timer (.refresh epoch)) queue).queue.now = key.time := out.now
  have config_eq : (simulation.pop (.timer (.refresh epoch)) queue).driver.config = config := set
  rw [now, config_eq] at removing refreshing
  have refreshes (entry : EventKey × Event) (waits : entry ∈ later.queue.waiting) (next' : Nat)
      (which : entry.2 = .timer (.refresh next')) : entry ∈ next :=
    (resets.mem_of_refresh _ _ _ _ _ _ entry waits next' which).resolve_right fun old =>
      timed.not_refresh_of_popUntil horizon key queue epoch popped entry old next' which
  have removes (entry : EventKey × Event) (waits : entry ∈ later.queue.waiting)
      (binding : LinkBinding) (which : entry.2 = .timer (.unbind binding)) :
      entry ∈ removals ∨ entry ∈ queue.waiting :=
    resets.mem_of_unbind _ _ _ _ _ _ entry waits binding which
  have past (one : Moment σ) (listed : one ∈ renewals log) :
      one.key.time + config.interval ≤ key.time :=
    timed.ahead one listed _ (out.waiting.mem_iff.2 List.mem_cons_self) epoch rfl
  constructor
  case bare =>
    intro entry waits timer which
    cases timer with
    | refresh next' => exact (refreshing entry (refreshes entry waits next' which)).1
    | unbind binding =>
      cases removes entry waits binding which with
      | inl removal => exact (removing entry removal).1
      | inr old => exact timed.bare entry (left entry old) _ which
  case numbered =>
    intro removal waits binding which refresh waits' next' which'
    have new := refreshes refresh waits' next' which'
    cases removes removal waits binding which with
    | inl listed => exact resets.increasing removal listed refresh new
    | inr old => exact Nat.lt_of_le_of_lt (inOrder.numbered removal old) (resets.fresh refresh new)
  case single =>
    intro one waits epoch which other waits' epoch' which'
    exact resets.single one (refreshes one waits epoch which) other
      (refreshes other waits' epoch' which')
  case spaced =>
    rw [renewals_append]
    refine List.pairwise_append.2 ⟨timed.spaced, List.pairwise_singleton _ _, ?_⟩
    intro one listed other here
    obtain rfl := List.mem_singleton.1 here
    exact past one listed
  case ahead =>
    intro one listed refresh waits next' which
    rw [renewals_append] at listed
    have time := (refreshing refresh (refreshes refresh waits next' which)).2.1
    cases List.mem_append.1 listed with
    | inl before =>
      have earlier := past one before
      omega
    | inr here =>
      obtain rfl := List.mem_singleton.1 here
      exact Nat.le_of_eq time.symm
  case asked =>
    intro entry waits binding which
    rw [renewals_append]
    cases removes entry waits binding which with
    | inr old =>
      apply (timed.asked entry (left entry old) binding which).append
      exact timed.lt_removal_of_popUntil ordered horizon key queue epoch popped entry old binding which
    | inl removal =>
      obtain ⟨_, time, stale, listed, unbinds⟩ := removing entry removal
      cases which.symm.trans unbinds
      obtain ⟨needed, idle⟩ := simulation.driver.needs_of_newlyStale driver epoch outcome timers
        refreshed current binding listed
      obtain ⟨needing, latest, needs⟩ := last binding needed
      have after : later.driver = driver := by
        have drives := (simulation.pop (.timer (.refresh epoch)) queue).driver_handle key.node
          (.timer (.refresh epoch))
        rw [handled] at drives
        exact drives.trans (congrArg Prod.snd refreshed)
      rw [← after] at idle
      rw [time]
      exact asked_of_getLast? _ _ binding needing _ latest needs idle

end Timed

section
variable [SnapshotSource σ] (config : SimulationConfig) (source : σ) (roles : NodeRoles)
  (requests : List Request) (positions : BitPositions)

omit [SnapshotSource σ] in
theorem timed_start :
    Timed config.refresh [] (start config source roles requests positions) := by
  have waiting := (gains_start config source roles requests positions).waiting
  have booked := Booking.map_ofEntry_entries EventQueue.empty.scheduled
    (⟨none, 0, .timer (.refresh 0)⟩ :: (requests.filter (·.duration ≠ 0)).map fun request =>
      ⟨some request.source, request.start, .burst request.id⟩)
  generalize Booking.entries EventQueue.empty.scheduled _ = fresh at waiting booked
  obtain ⟨first, rest, rfl, refresh, bursts⟩ := List.map_eq_cons_iff.1 booked
  have none : EventQueue.empty.waiting = [] := by simp [EventQueue.waiting, EventQueue.empty]
  rw [none, List.append_nil] at waiting
  have which : first.2 = .timer (.refresh 0) := congrArg Booking.event refresh
  -- The one timer at the start is the first refresh.
  have alone (entry : EventKey × Event)
      (waits : entry ∈ (start config source roles requests positions).queue.waiting) (timer : Timer)
      (timed : entry.2 = .timer timer) : entry = first := by
    cases List.mem_cons.1 (waiting.mem_iff.1 waits) with
    | inl same => exact same
    | inr burst =>
      have mapped := List.mem_map_of_mem (f := Booking.ofEntry) burst
      rw [bursts] at mapped
      obtain ⟨_, _, same⟩ := List.mem_map.1 mapped
      cases timed.symm.trans (congrArg Booking.event same).symm
  constructor
  case bare =>
    intro entry waits timer timed
    rw [alone entry waits timer timed]
    exact congrArg Booking.node refresh
  case numbered =>
    intro removal waits binding timed
    rw [alone removal waits _ timed, which] at timed
    cases timed
  case single =>
    intro one waits epoch timed other waits' epoch' timed'
    rw [alone one waits _ timed, alone other waits' _ timed']
  case spaced => exact .nil
  case ahead => simp [renewals]
  case asked =>
    intro entry waits binding timed
    rw [alone entry waits _ timed, which] at timed
    cases timed

theorem ne_ok_of_refreshes (moment : Moment σ)
    (handled : moment.before.handle moment.key.node moment.event = (moment.result, moment.after))
    (idle : moment.refreshes = false) (epoch : Nat) (outcome : RefreshOutcome)
    (timers : List TimerRequest) (driver : RefreshDriver σ)
    (refresh : moment.event = .timer (.refresh epoch)) :
    moment.before.driver.refresh epoch ≠ (.ok (outcome, timers), driver) := by
  intro refreshed
  rw [refresh] at handled
  have result : moment.result = .ok () := by
    simp only [handle, handleRefresh, refreshed, Prod.mk.injEq] at handled
    exact handled.1.symm
  have renews := moment.refreshes_eq_true.2 ⟨⟨epoch, refresh⟩, result⟩
  exact absurd (renews.symm.trans idle) (by decide)

variable (log : List (Moment σ)) (simulation : Simulation σ)
  (course : (start config source roles requests positions).Course log simulation)
include course

theorem needsNow_of_course (binding : LinkBinding) :
    simulation.driver.NeedsNow binding ↔
      ∃ last, (renewals log).getLast? = some last ∧ last.after.driver.NeedsNow binding := by
  induction course with
  | start =>
    constructor
    · intro needs
      obtain ⟨_, _, _, last, _⟩ := needs
      cases last
    · intro last
      obtain ⟨_, absent, _⟩ := last
      cases absent
  | step log simulation later horizon key event queue result _ _ _ handled ih =>
    rw [renewals_append]
    cases renews : (Moment.mk key event (simulation.pop event queue) result later).refreshes with
    | true => simp
    | false =>
      have same := (simulation.pop event queue).needsNow_of_handle key.node event binding
        (ne_ok_of_refreshes _ handled renews)
      rw [handled] at same
      rw [if_neg (by decide), List.append_nil]
      exact same.trans ih
  | rest log simulation horizon _ _ ih => exact ih

theorem timed_of_course : Timed config.refresh log simulation := by
  have ordered := (gains_start config source roles requests positions).ordered
  induction course with
  | start => exact timed_start config source roles requests positions
  | step log simulation later horizon key event queue result earlier _ popped handled ih =>
    obtain ⟨inOrder, _⟩ := ordered_of_course _ simulation log ordered earlier
    cases renews : (Moment.mk key event (simulation.pop event queue) result later).refreshes with
    | true =>
      obtain ⟨⟨epoch, refresh⟩, ok⟩ := (Moment.refreshes_eq_true _).1 renews
      dsimp only at refresh ok
      subst refresh ok
      obtain ⟨outcome, timers, driver, refreshed⟩ :=
        (simulation.pop _ queue).ok_of_handle_refresh later key.node _ epoch rfl handled
      have setting := setting_of_course _ simulation log earlier
      exact ih.step_refresh inOrder (congrArg Prod.fst setting)
        (tended_of_course config source roles requests positions log simulation earlier).current
        (fun binding => (needsNow_of_course config source roles requests positions log simulation
          earlier binding).1)
        horizon key queue epoch popped outcome timers driver refreshed later handled
    | false =>
      have out := simulation.queue.popped_of_popUntil queue horizon key event popped
      obtain ⟨rest, _, _⟩ := simulation.queue.ordered_of_popped queue inOrder horizon key event out
      apply ih.mono
      · rw [renewals_append, renews, if_neg (by decide), List.append_nil]
      · intro entry waits timer which
        have before := (simulation.pop event queue).timer_of_handle key.node event rest entry
        rw [handled] at before
        cases before waits timer which with
        | inl old => exact out.waiting.mem_iff.2 (List.mem_cons_of_mem _ old)
        | inr sets =>
          obtain ⟨epoch, outcome, timers, driver, refresh, refreshed⟩ := sets
          exact absurd refreshed
            (ne_ok_of_refreshes _ handled renews epoch outcome timers driver refresh)
  | rest log simulation horizon _ _ ih =>
    exact ih.mono _ _ rfl fun entry waits _ _ => waits

/-- A binding that is removed was asked to be removed a grace before, by the refresh right after one
that needed it. If the grace is at most two intervals, no refresh since has needed it, so it has been
stale for the whole grace. -/
theorem graced_of_course :
    (∀ past removal rest binding, log = past ++ removal :: rest → removal.Removes binding →
        Asked (renewals past) config.refresh.grace binding removal.key.time) ∧
      (config.refresh.grace ≤ 2 * config.refresh.interval → Graced log config.refresh.grace) := by
  have asked (past : List (Moment σ)) (removal : Moment σ) (rest : List (Moment σ))
      (binding : LinkBinding) (split : log = past ++ removal :: rest)
      (removes : removal.Removes binding) :
      Asked (renewals past) config.refresh.grace binding removal.key.time := by
    obtain ⟨earlier, horizon, queue, before, popped, _, _⟩ :=
      course_of_append _ simulation log course past rest removal split
    have timed := timed_of_course config source roles requests positions past earlier before
    have out := earlier.queue.popped_of_popUntil queue horizon _ _ popped
    exact timed.asked _ (out.waiting.mem_iff.2 List.mem_cons_self) binding removes.event
  refine ⟨asked, ?_⟩
  intro short past removal rest binding split removes
  obtain ⟨earlier, _, queue, before, _, same, _⟩ :=
    course_of_append _ simulation log course past rest removal split
  have timed := timed_of_course config source roles requests positions past earlier before
  have unneeded : ¬earlier.driver.NeedsNow binding := by
    have logged : removal ∈ log := by
      rw [split]
      exact List.mem_append_right _ List.mem_cons_self
    have idle := (unneeded_of_gone config source roles requests positions log simulation course removal
      logged binding removes.bound removes.gone).2
    rwa [same] at idle
  apply (asked past removal rest binding split removes).stays_idle _ _ _ short timed.spaced
  intro last latest needs
  exact unneeded ((needsNow_of_course config source roles requests positions past earlier before
    binding).2 ⟨last, latest, needs⟩)

end

theorem graced_of_course_handover :
    ∃ log simulation, (handoverRun 5).Course log simulation ∧ Flawless log ∧
      (∃ removal ∈ log, removal.key.time = 15 ∧ removal.Removes uplink) ∧ Graced log 5 := by
  have course := course_logUntil (handoverRun 5) (handoverRun 5) [] .start 15 100 (by decide)
  have flawless : Flawless ((handoverRun 5).logUntil 15 100).1 :=
    flawless_of_all _ (by decide +kernel)
  have removal : ((handoverRun 5).logUntil 15 100).1.any (fun moment =>
      moment.key.time = 15 ∧ moment.event = .timer (.unbind uplink) ∧
        uplink ∈ moment.before.driver.bindings.bound ∧
        uplink ∉ moment.after.driver.bindings.bound) = true := by decide +kernel
  obtain ⟨moment, member, found⟩ := List.any_eq_true.1 removal
  obtain ⟨time, event, bound, gone⟩ := of_decide_eq_true found
  have graced := (graced_of_course _ _ _ _ _ _ _ course).2 (by decide)
  exact ⟨_, _, course, flawless, ⟨moment, member, time, event, bound, gone⟩, graced⟩

/-- With a grace of one more than two intervals, a binding goes that has been stale for one nanosecond.
The refresh at 10 asks for its removal at 31, the one at 20 renews it, and the one at 30 does not need
it again. -/
theorem not_graced_handover :
    ∃ log simulation, (handoverRun 21).Course log simulation ∧ Flawless log ∧ ¬Graced log 21 := by
  have course := course_logUntil (handoverRun 21) (handoverRun 21) [] .start 31 100 (by decide)
  have flawless : Flawless ((handoverRun 21).logUntil 31 100).1 :=
    flawless_of_all _ (by decide +kernel)
  have removal : (((handoverRun 21).logUntil 31 100).1.drop 8).all (fun moment =>
      moment.key.time = 31 ∧ moment.event = .timer (.unbind uplink) ∧
        uplink ∈ moment.before.driver.bindings.bound ∧
        uplink ∉ moment.after.driver.bindings.bound) = true := by decide +kernel
  have one : (((handoverRun 21).logUntil 31 100).1.drop 8).length = 1 := by decide +kernel
  have times : (renewals (((handoverRun 21).logUntil 31 100).1.take 8)).map (·.key.time) =
      [0, 10, 20, 30] := by decide +kernel
  have renewal : (renewals (((handoverRun 21).logUntil 31 100).1.take 8)).any (fun moment =>
      moment.key.time = 20 ∧ moment.after.driver.bindings.bound[uplink]? =
        some moment.after.driver.bindings.generation) = true := by decide +kernel
  refine ⟨_, _, course, flawless, fun graced => ?_⟩
  rw [List.nil_append] at course graced
  have current := current_of_moment _ _ _ _ _ _ _ course
  have parted := List.take_append_drop 8 ((handoverRun 21).logUntil 31 100).1
  generalize ((handoverRun 21).logUntil 31 100).1 = log at *
  generalize log.take 8 = past at *
  cases tail : log.drop 8 with
  | nil =>
    rw [tail] at one
    cases one
  | cons last rest =>
    rw [tail] at parted removal
    obtain ⟨time, event, bound, gone⟩ := of_decide_eq_true (List.all_eq_true.1 removal last List.mem_cons_self)
    obtain ⟨earlier, needed, between, parts, _, idle, asked, listed, due⟩ :=
      graced past last rest uplink parted.symm ⟨event, bound, gone⟩
    obtain ⟨renewed, member, found⟩ := List.any_eq_true.1 renewal
    obtain ⟨at20, held⟩ := of_decide_eq_true found
    have needs : renewed.after.driver.NeedsNow uplink := by
      have logged : renewed ∈ log := by
        rw [← parted]
        exact List.mem_append_left _ (List.mem_filter.1 member).1
      exact ((current renewed logged).2.needsNow_iff _ uplink).2 held
    have ascending : (renewals past).Pairwise fun one other => one.key.time < other.key.time := by
      rw [← List.pairwise_map, times]
      decide
    rw [parts] at member ascending
    obtain ⟨_, tail, across⟩ := List.pairwise_append.1 ascending
    cases List.mem_append.1 member with
    | inl before =>
      have late := across renewed before asked (List.mem_cons_of_mem _ listed)
      omega
    | inr since =>
      cases List.mem_cons.1 since with
      | inl same =>
        have late := (List.pairwise_cons.1 tail).1 asked listed
        rw [← same] at late
        omega
      | inr again => exact idle renewed again needs

end Simulation
end Multicast
