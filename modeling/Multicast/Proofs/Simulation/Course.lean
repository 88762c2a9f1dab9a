import Multicast.Proofs.Event.Order
import Multicast.Proofs.Simulation.History

/-!
Courses of runs. A course logs every event that was handled, with the run before and after. What
handling an event books is told by the event and by the state alone. Main statements: a run to any
horizon has a course, and an event that was booked waits or has been handled.
-/

namespace Multicast
open Std

def Effect.booking? (arrival : Nat) : Effect → Option Booking
  | .copy receiver interface packet => some ⟨some receiver, arrival, .arrival packet interface⟩
  | _ => none

namespace EventQueue

theorem gains_setTimers (queue : EventQueue) (ordered : queue.Ordered) (timers : List TimerRequest) :
    queue.Gains (timers.foldl (fun queue asked => queue.setTimer asked.timer asked.delay) queue)
      (timers.map fun asked => ⟨none, queue.now + asked.delay, .timer asked.timer⟩) := by
  induction timers generalizing queue with
  | nil => exact queue.gains_nil ordered
  | cons asked rest ih =>
    have first := queue.gains_setTimer ordered asked.timer asked.delay
    have later := ih (queue.setTimer asked.timer asked.delay) first.ordered
    rw [first.now] at later
    exact first.append _ _ _ _ _ later

end EventQueue

namespace Simulation
variable {σ : Type}

def effects (simulation : Simulation σ) (node : Option NodeId) :
    Event → Except SimulationError (List Effect)
  | .timer _ => .ok []
  | .burst id =>
    match simulation.driver.request? id with
    | none => .error (.unknownRequest id)
    | some request =>
      simulation.driver.emit request simulation.config.hopLimit (simulation.sent id)
  | .arrival packet _ =>
    match node with
    | none => .ok []
    | some node => simulation.driver.receive node packet

def nextBurst (simulation : Simulation σ) (request : Request) : List Booking :=
  if simulation.now + request.packetGap < request.finish then
    [⟨some request.source, simulation.now + request.packetGap, .burst request.id⟩]
  else []

/-- What an event books for itself: the timers of a refresh and the burst after a burst. -/
def sequels [SnapshotSource σ] (simulation : Simulation σ) : Event → List Booking
  | .timer (.refresh epoch) =>
    match (simulation.driver.refresh epoch).1 with
    | .error _ => []
    | .ok (_, timers) =>
      timers.map fun asked => ⟨none, simulation.now + asked.delay, .timer asked.timer⟩
  | .burst id => ((simulation.driver.request? id).map simulation.nextBurst).getD []
  | _ => []

def bookings [SnapshotSource σ] (simulation : Simulation σ) (node : Option NodeId) (event : Event) :
    List Booking :=
  match simulation.effects node event with
  | .error _ => []
  | .ok effects =>
    effects.filterMap (Effect.booking? (simulation.now + simulation.config.linkLatency)) ++
      simulation.sequels event

theorem bookings_of_error [SnapshotSource σ] (simulation : Simulation σ) (node : Option NodeId)
    (event : Event) (error : SimulationError)
    (failed : simulation.effects node event = .error error) :
    simulation.bookings node event = [] := by
  unfold bookings
  rw [failed]

theorem bookings_of_ok [SnapshotSource σ] (simulation : Simulation σ) (node : Option NodeId)
    (event : Event) (effects : List Effect)
    (happens : simulation.effects node event = .ok effects) :
    simulation.bookings node event =
      effects.filterMap (Effect.booking? (simulation.now + simulation.config.linkLatency)) ++
        simulation.sequels event := by
  unfold bookings
  rw [happens]

theorem event_of_sequels [SnapshotSource σ] (simulation : Simulation σ) (event : Event)
    (booking : Booking) (sequel : booking ∈ simulation.sequels event) :
    (∃ epoch timer, event = .timer (.refresh epoch) ∧ booking.event = .timer timer) ∨
      ∃ id, event = .burst id ∧ booking.event = .burst id := by
  unfold sequels at sequel
  split at sequel
  · split at sequel
    · cases sequel
    · obtain ⟨asked, _, rfl⟩ := List.mem_map.1 sequel
      exact .inl ⟨_, asked.timer, rfl, rfl⟩
  · rename_i id
    cases found : simulation.driver.request? id with
    | none => simp [found] at sequel
    | some request =>
      simp only [found, Option.map_some, Option.getD_some, nextBurst] at sequel
      split at sequel
      · obtain rfl := List.mem_singleton.1 sequel
        exact .inr ⟨id, rfl, congrArg Event.burst (simulation.driver.request?_eq_some id request found).2⟩
      · cases sequel
  · cases sequel

theorem copy_or_sequel_of_mem_bookings [SnapshotSource σ] (simulation : Simulation σ)
    (node : Option NodeId) (event : Event) (booking : Booking)
    (booked : booking ∈ simulation.bookings node event) :
    (∃ effects receiver interface packet, simulation.effects node event = .ok effects ∧
      .copy receiver interface packet ∈ effects ∧
      booking = ⟨some receiver, simulation.now + simulation.config.linkLatency,
        .arrival packet interface⟩) ∨
      booking ∈ simulation.sequels event := by
  unfold bookings at booked
  split at booked
  · cases booked
  · rename_i effects happens
    rcases List.mem_append.1 booked with copied | sequel
    · obtain ⟨effect, sent, found⟩ := List.mem_filterMap.1 copied
      cases effect with
      | copy receiver interface packet =>
        cases found
        exact .inl ⟨effects, receiver, interface, packet, happens, sent, rfl⟩
      | _ => cases found
    · exact .inr sequel

theorem config_applyEffects (simulation : Simulation σ) (request : RequestId)
    (effects : List Effect) :
    (simulation.applyEffects request effects).config = simulation.config := by
  induction effects generalizing simulation with
  | nil => rfl
  | cons effect rest ih =>
    refine (ih (applyEffect request simulation effect)).trans ?_
    cases effect <;> rfl

theorem gains_applyEffect (simulation : Simulation σ) (ordered : simulation.queue.Ordered)
    (request : RequestId) (effect : Effect) :
    simulation.queue.Gains (applyEffect request simulation effect).queue
      ([effect].filterMap (Effect.booking? (simulation.now + simulation.config.linkLatency))) := by
  cases effect with
  | copy receiver interface packet =>
    exact simulation.queue.gains_schedule ordered _ _ _ (Nat.le_add_right _ _)
  | deliver => exact simulation.queue.gains_nil ordered
  | noRoute => exact simulation.queue.gains_nil ordered
  | expired => exact simulation.queue.gains_nil ordered
  | unresolved => exact simulation.queue.gains_nil ordered

theorem gains_applyEffects (simulation : Simulation σ) (ordered : simulation.queue.Ordered)
    (request : RequestId) (effects : List Effect) :
    simulation.queue.Gains (simulation.applyEffects request effects).queue
      (effects.filterMap (Effect.booking? (simulation.now + simulation.config.linkLatency))) := by
  induction effects generalizing simulation with
  | nil => exact simulation.queue.gains_nil ordered
  | cons effect rest ih =>
    have first := simulation.gains_applyEffect ordered request effect
    have later := ih (applyEffect request simulation effect) first.ordered
    have now : (applyEffect request simulation effect).now = simulation.now := first.now
    have config : (applyEffect request simulation effect).config = simulation.config :=
      simulation.config_applyEffects request [effect]
    rw [now, config] at later
    have both := first.append _ _ _ _ _ later
    rwa [← List.filterMap_append] at both

theorem gains_scheduleNext (simulation : Simulation σ) (ordered : simulation.queue.Ordered)
    (request : Request) :
    simulation.queue.Gains (simulation.scheduleNext request).queue
      (simulation.nextBurst request) := by
  unfold scheduleNext nextBurst
  dsimp only
  split
  · exact simulation.queue.gains_schedule ordered _ _ _ (Nat.le_add_right _ _)
  · exact simulation.queue.gains_nil ordered

theorem effects_of_request? (simulation : Simulation σ) (node : Option NodeId) (id : RequestId)
    (request : Request) (found : simulation.driver.request? id = some request) :
    simulation.effects node (.burst id) =
      simulation.driver.emit request simulation.config.hopLimit (simulation.sent id) := by
  simp only [effects, found]

/-- Handling an event books what the event and the state tell. -/
theorem gains_handle [SnapshotSource σ] (simulation : Simulation σ)
    (ordered : simulation.queue.Ordered) (node : Option NodeId) (event : Event) :
    simulation.queue.Gains (simulation.handle node event).2.queue
      (simulation.bookings node event) := by
  have ways := simulation.ends_handle node event
  generalize (simulation.handle node event).1 = result at ways
  generalize (simulation.handle node event).2 = later at ways ⊢
  have nothing := simulation.queue.gains_nil ordered
  cases ways with
  | unrefreshed epoch error driver refresh =>
    rw [simulation.bookings_of_ok node _ [] rfl]
    simp only [sequels, refresh]
    exact nothing
  | refreshed epoch outcome timers driver refresh =>
    rw [simulation.bookings_of_ok node _ [] rfl]
    simp only [sequels, refresh]
    exact simulation.queue.gains_setTimers ordered timers
  | unbound binding => exact nothing
  | unknown id found =>
    rw [simulation.bookings_of_error node (.burst id) (.unknownRequest id)
      (by simp only [effects, found])]
    exact nothing
  | unsent id request error found emit =>
    rw [simulation.bookings_of_error node (.burst id) error
      ((simulation.effects_of_request? node id request found).trans emit)]
    exact nothing
  | sent id request effects found emit =>
    rw [simulation.bookings_of_ok node (.burst id) effects
      ((simulation.effects_of_request? node id request found).trans emit)]
    simp only [sequels, found, Option.map_some, Option.getD_some]
    have copies :=
      (simulation.countSent id (simulation.sent id)).gains_applyEffects ordered id effects
    have next := gains_scheduleNext _ copies.ordered request
    have now : ((simulation.countSent id (simulation.sent id)).applyEffects id effects).now =
        simulation.now := copies.now
    unfold nextBurst at next
    rw [now] at next
    exact copies.append _ _ _ _ _ next
  | stray packet interface nowhere =>
    subst nowhere
    exact nothing
  | unreceived receiver packet interface error here receive =>
    subst here
    rw [simulation.bookings_of_error (some receiver) (.arrival packet interface) error receive]
    exact nothing
  | received receiver packet interface effects here receive =>
    subst here
    rw [simulation.bookings_of_ok (some receiver) (.arrival packet interface) effects receive]
    exact (simulation.gains_applyEffects ordered packet.request effects).append _ _ _ _ _
      (EventQueue.gains_nil _ (simulation.gains_applyEffects ordered packet.request effects).ordered)

theorem result_handle [SnapshotSource σ] (simulation : Simulation σ) (node : Option NodeId)
    (event : Event) (other : ∀ epoch, event ≠ .timer (.refresh epoch)) :
    (simulation.handle node event).1 = (simulation.effects node event).map fun _ => () := by
  have ways := simulation.ends_handle node event
  generalize (simulation.handle node event).1 = result at ways ⊢
  generalize (simulation.handle node event).2 = later at ways
  cases ways with
  | unrefreshed epoch => exact absurd rfl (other epoch)
  | refreshed epoch => exact absurd rfl (other epoch)
  | unbound => rfl
  | unknown id found => simp only [effects, found, Except.map]
  | unsent id request error found emit =>
    rw [simulation.effects_of_request? node id request found, emit]
    rfl
  | sent id request effects found emit =>
    rw [simulation.effects_of_request? node id request found, emit]
    rfl
  | stray packet interface nowhere =>
    subst nowhere
    rfl
  | unreceived receiver packet interface error here receive =>
    subst here
    simp only [effects, receive, Except.map]
  | received receiver packet interface effects here receive =>
    subst here
    simp only [Simulation.effects, receive, Except.map]

theorem config_handle [SnapshotSource σ] (simulation : Simulation σ) (node : Option NodeId)
    (event : Event) : (simulation.handle node event).2.config = simulation.config := by
  have ways := simulation.ends_handle node event
  generalize (simulation.handle node event).1 = result at ways
  generalize (simulation.handle node event).2 = later at ways ⊢
  cases ways with
  | unrefreshed => rfl
  | refreshed => rfl
  | unbound => rfl
  | unknown => rfl
  | unsent => rfl
  | sent id request effects =>
    rw [config_scheduleNext, config_applyEffects]
    rfl
  | stray => rfl
  | unreceived => rfl
  | received => exact simulation.config_applyEffects _ _

theorem driver_handle [SnapshotSource σ] (simulation : Simulation σ) (node : Option NodeId)
    (event : Event) :
    (simulation.handle node event).2.driver = match event with
      | .timer (.refresh epoch) => (simulation.driver.refresh epoch).2
      | .timer (.unbind binding) => simulation.driver.unbind binding
      | _ => simulation.driver := by
  have ways := simulation.ends_handle node event
  generalize (simulation.handle node event).1 = result at ways
  generalize (simulation.handle node event).2 = later at ways ⊢
  cases ways with
  | unrefreshed epoch error driver refresh => exact (congrArg Prod.snd refresh).symm
  | refreshed epoch outcome timers driver refresh => exact (congrArg Prod.snd refresh).symm
  | unbound => rfl
  | unknown => rfl
  | unsent => rfl
  | sent id request effects =>
    rw [driver_scheduleNext, (applied_applyEffects _ id effects).driver]
    rfl
  | stray => rfl
  | unreceived => rfl
  | received _ packet _ effects => exact (simulation.applied_applyEffects packet.request effects).driver

theorem setting_handle [SnapshotSource σ] (simulation : Simulation σ) (node : Option NodeId)
    (event : Event) :
    (simulation.handle node event).2.driver.setting = simulation.driver.setting := by
  rw [driver_handle]
  split
  · exact simulation.driver.setting_refresh _
  · rfl
  · rfl

theorem ok_of_handle_refresh [SnapshotSource σ] (simulation later : Simulation σ)
    (node : Option NodeId) (event : Event) (epoch : Nat)
    (refresh : event = .timer (.refresh epoch))
    (handled : simulation.handle node event = (.ok (), later)) :
    ∃ outcome timers driver, simulation.driver.refresh epoch = (.ok (outcome, timers), driver) := by
  subst refresh
  rcases refreshed : simulation.driver.refresh epoch with ⟨error | ⟨outcome, timers⟩, driver⟩
  · simp [handle, handleRefresh, refreshed] at handled
  · exact ⟨outcome, timers, driver, rfl⟩

end Simulation

/-- An event that was handled: the run it found as it had left the queue, how it ended, and the run
it left. -/
structure Moment (σ : Type) where
  key : EventKey
  event : Event
  before : Simulation σ
  result : Except SimulationError Unit
  after : Simulation σ

def Moment.booking {σ : Type} (moment : Moment σ) : Booking := .ofEntry (moment.key, moment.event)

structure Moment.Proper {σ : Type} [SnapshotSource σ] (moment : Moment σ) : Prop where
  ordered : moment.before.queue.Ordered
  now : moment.before.queue.now = moment.key.time
  ranked : moment.key.priority = moment.event.priority
  first : ∀ entry ∈ moment.before.queue.waiting, moment.key.time ≤ entry.1.time ∧
    (moment.key.time = entry.1.time → moment.key.priority.rank ≤ entry.1.priority.rank)
  handled : moment.before.handle moment.key.node moment.event = (moment.result, moment.after)

namespace Simulation
variable {σ : Type}

/-- The run is reached from the first one event by event, and the log has all of them. The clock is
set to a horizon only when no event up to it is left. -/
inductive Course [SnapshotSource σ] (first : Simulation σ) : List (Moment σ) → Simulation σ → Prop where
  | start : Course first [] first
  | step (log : List (Moment σ)) (simulation later : Simulation σ) (horizon : Nat) (key : EventKey)
    (event : Event) (queue : EventQueue) (result : Except SimulationError Unit)
    (earlier : Course first log simulation) (counted : simulation.stats.events < eventAllowance)
    (popped : simulation.queue.popUntil horizon = some (key, event, queue))
    (handled : (simulation.pop event queue).handle key.node event = (result, later)) :
    Course first (log ++ [⟨key, event, simulation.pop event queue, result, later⟩]) later
  | rest (log : List (Moment σ)) (simulation : Simulation σ) (horizon : Nat)
    (earlier : Course first log simulation) (finished : simulation.queue.popUntil horizon = none) :
    Course first log { simulation with queue := simulation.queue.advanceTo horizon }

def Flawless (log : List (Moment σ)) : Prop := ∀ moment ∈ log, moment.result = .ok ()

theorem flawless_append (log : List (Moment σ)) (moment : Moment σ) :
    Flawless (log ++ [moment]) ↔ Flawless log ∧ moment.result = .ok () := by
  simp [Flawless, or_imp, forall_and]

theorem flawless_of_all (log : List (Moment σ)) (each : log.all (·.result.isOk) = true) :
    Flawless log := by
  intro moment member
  have ok := List.all_eq_true.1 each moment member
  rcases result : moment.result with error | ⟨⟩
  · rw [result] at ok
    cases ok
  · rfl

theorem exists_course_runWithin [SnapshotSource σ] (first simulation : Simulation σ)
    (log : List (Moment σ)) (course : first.Course log simulation) (horizon allowance : Nat)
    (counted : simulation.stats.events + allowance ≤ eventAllowance) :
    ∃ later, first.Course (log ++ later) (simulation.runWithin horizon allowance).2 ∧
      ((simulation.runWithin horizon allowance).1 = .finished → Flawless later ∧
        ∀ entry ∈ (simulation.runWithin horizon allowance).2.queue.waiting,
          horizon < entry.1.time) := by
  induction allowance generalizing log simulation with
  | zero => exact ⟨[], by simpa [runWithin] using course, by simp [runWithin]⟩
  | succ allowance ih =>
    have within : simulation.stats.events < eventAllowance := by omega
    unfold runWithin
    cases popped : simulation.queue.popUntil horizon with
    | none =>
      simp only [Simulation.step, popped]
      exact ⟨[], by simpa using course.rest log simulation horizon popped,
        fun _ => ⟨by simp [Flawless], (EventQueue.popUntil_eq_none _ _).1 popped⟩⟩
    | some entry =>
      obtain ⟨key, event, queue⟩ := entry
      obtain ⟨stepped, _⟩ := simulation.step_of_popUntil horizon key event queue popped
      rcases handled : (simulation.pop event queue).handle key.node event with ⟨error | ⟨⟩, later⟩
      · simp only [stepped, handled]
        exact ⟨_, course.step log simulation later horizon key event queue _ within popped handled,
          by simp⟩
      · simp only [stepped, handled]
        rw [handled] at stepped
        have events := events_step simulation later horizon _ stepped
        obtain ⟨more, course, finished⟩ := ih later _
          (course.step log simulation later horizon key event queue _ within popped handled)
          (by omega)
        rw [List.append_assoc] at course
        refine ⟨_, course, fun complete => ⟨?_, (finished complete).2⟩⟩
        exact List.forall_mem_cons.2 ⟨rfl, (finished complete).1⟩

theorem exists_course_run [SnapshotSource σ] (config : SimulationConfig) (source : σ)
    (roles : NodeRoles) (requests : List Request) (positions : BitPositions) :
    ∃ log, (start config source roles requests positions).Course log
        (start config source roles requests positions).run.2 ∧
      ((start config source roles requests positions).run.1 = .finished → Flawless log ∧
        ∀ entry ∈ (start config source roles requests positions).run.2.queue.waiting,
          config.refresh.finish < entry.1.time) := by
  obtain ⟨log, course, finished⟩ := exists_course_runWithin _
    (start config source roles requests positions) [] .start config.refresh.finish eventAllowance
    (by simp [start])
  exact ⟨log, course, finished⟩

theorem gains_start (config : SimulationConfig) (source : σ) (roles : NodeRoles)
    (requests : List Request) (positions : BitPositions) :
    EventQueue.empty.Gains (start config source roles requests positions).queue
      (⟨none, 0, .timer (.refresh 0)⟩ :: (requests.filter (·.duration ≠ 0)).map fun request =>
        ⟨some request.source, request.start, .burst request.id⟩) := by
  have bursts (queue : EventQueue) (ordered : queue.Ordered) (fresh : queue.now = 0) :
      queue.Gains (requests.foldl scheduleFirst queue)
        ((requests.filter (·.duration ≠ 0)).map fun request =>
          ⟨some request.source, request.start, .burst request.id⟩) := by
    induction requests generalizing queue with
    | nil => exact queue.gains_nil ordered
    | cons request rest ih =>
      rw [List.foldl_cons, scheduleFirst]
      by_cases empty : request.duration = 0
      · rw [if_pos empty, List.filter_cons_of_neg (by simpa using empty)]
        exact ih queue ordered fresh
      · rw [if_neg empty, List.filter_cons_of_pos (by simpa using empty), List.map_cons]
        have first := queue.gains_schedule ordered (some request.source) request.start
          (.burst request.id) (by rw [fresh]; exact Nat.zero_le _)
        exact first.append _ _ _ _ _ (ih _ first.ordered (first.now.trans fresh))
  have first := EventQueue.empty.gains_schedule EventQueue.ordered_empty none 0
    (.timer (.refresh 0)) (Nat.le_refl 0)
  exact first.append _ _ _ _ _ (bursts _ first.ordered first.now)

theorem booked_start (config : SimulationConfig) (source : σ) (roles : NodeRoles)
    (requests : List Request) (positions : BitPositions) :
    (start config source roles requests positions).queue.booked.Perm
      (⟨none, 0, .timer (.refresh 0)⟩ :: (requests.filter (·.duration ≠ 0)).map fun request =>
        ⟨some request.source, request.start, .burst request.id⟩) := by
  have nothing : EventQueue.empty.booked = [] := by
    simp [EventQueue.booked, EventQueue.waiting, EventQueue.empty]
  have first := (gains_start config source roles requests positions).booked
  rwa [nothing, List.append_nil] at first

section
variable [SnapshotSource σ] (first simulation : Simulation σ) (log : List (Moment σ))
  (ordered : first.queue.Ordered) (course : first.Course log simulation)
include ordered course

theorem ordered_of_course : simulation.queue.Ordered ∧ ∀ moment ∈ log, moment.Proper := by
  induction course with
  | start => exact ⟨ordered, by simp⟩
  | step log simulation later horizon key event queue result _ _ popped handled ih =>
    obtain ⟨inOrder, proper⟩ := ih
    have out := simulation.queue.popped_of_popUntil queue horizon key event popped
    obtain ⟨rest, _, ranked⟩ := simulation.queue.ordered_of_popped queue inOrder horizon key event out
    have gains := (simulation.pop event queue).gains_handle rest key.node event
    rw [handled] at gains
    refine ⟨gains.ordered, List.forall_mem_append.2 ⟨proper, List.forall_mem_singleton.2 ?_⟩⟩
    exact ⟨rest, out.now, ranked, out.first, handled⟩
  | rest log simulation horizon _ finished ih =>
    obtain ⟨inOrder, proper⟩ := ih
    have after := (simulation.queue.popUntil_eq_none horizon).1 finished
    exact ⟨simulation.queue.ordered_advanceTo inOrder horizon fun entry waits =>
      Nat.le_of_lt (after entry waits), proper⟩

omit ordered in
theorem setting_of_course : simulation.driver.setting = first.driver.setting := by
  induction course with
  | start => rfl
  | step log simulation later horizon key event queue result _ _ _ handled ih =>
    have setting := (simulation.pop event queue).setting_handle key.node event
    rw [handled] at setting
    exact setting.trans ih
  | rest log simulation horizon _ _ ih => exact ih

omit ordered in
/-- The part of a log before an event is the log of the run that handled it. -/
theorem course_of_append (past rest : List (Moment σ)) (moment : Moment σ)
    (split : log = past ++ moment :: rest) :
    ∃ earlier horizon queue, first.Course past earlier ∧
      earlier.queue.popUntil horizon = some (moment.key, moment.event, queue) ∧
      moment.before = earlier.pop moment.event queue ∧
      moment.before.handle moment.key.node moment.event = (moment.result, moment.after) := by
  induction course generalizing rest with
  | start => simp at split
  | step log simulation later horizon key event queue result earlier _ popped handled ih =>
    cases rest.eq_nil_or_concat with
    | inl last =>
      subst last
      obtain ⟨rfl, same⟩ := List.append_inj' split rfl
      cases same
      exact ⟨simulation, horizon, queue, earlier, popped, rfl, handled⟩
    | inr more =>
      obtain ⟨most, last, rfl⟩ := more
      rw [List.concat_eq_append, ← List.cons_append, ← List.append_assoc] at split
      exact ih most (List.append_inj' split rfl).1
  | rest log simulation horizon _ _ ih => exact ih rest split

omit ordered in
theorem setting_of_moment (moment : Moment σ) (member : moment ∈ log) :
    moment.before.driver.setting = first.driver.setting := by
  obtain ⟨past, rest, split⟩ := List.append_of_mem member
  obtain ⟨earlier, _, _, before, _, same, _⟩ :=
    course_of_append first simulation log course past rest moment split
  rw [same]
  exact setting_of_course first earlier past before

theorem waits_or_handled (moment : Moment σ) (member : moment ∈ log) (entry : EventKey × Event)
    (waits : entry ∈ moment.after.queue.waiting) :
    entry ∈ simulation.queue.waiting ∨ ∃ later ∈ log, (later.key, later.event) = entry := by
  induction course with
  | start => cases member
  | step log simulation later horizon key event queue result earlier _ popped handled ih =>
    have out := simulation.queue.popped_of_popUntil queue horizon key event popped
    obtain ⟨inOrder, _⟩ := ordered_of_course first simulation log ordered earlier
    obtain ⟨rest, _, _⟩ := simulation.queue.ordered_of_popped queue inOrder horizon key event out
    have gains := (simulation.pop event queue).gains_handle rest key.node event
    rw [handled] at gains
    rcases List.mem_append.1 member with before | here
    · rcases ih before with left | ⟨other, listed, same⟩
      · rcases List.mem_cons.1 (out.waiting.mem_iff.1 left) with rfl | left
        · exact .inr ⟨_, List.mem_append_right _ List.mem_cons_self, rfl⟩
        · exact .inl (gains.keeps _ _ _ entry left)
      · exact .inr ⟨other, List.mem_append_left _ listed, same⟩
    · obtain rfl := List.mem_singleton.1 here
      exact .inl waits
  | rest log simulation horizon _ _ ih => exact ih member

/-- What an event has booked is handled in a run that has come to its time. -/
theorem handled_of_booked (moment : Moment σ) (member : moment ∈ log) (booking : Booking)
    (booked : booking ∈ moment.before.bookings moment.key.node moment.event) (horizon : Nat)
    (finished : simulation.queue.popUntil horizon = none) (due : booking.time ≤ horizon) :
    ∃ later ∈ log, later.booking = booking := by
  obtain ⟨_, proper⟩ := ordered_of_course first simulation log ordered course
  have gains := moment.before.gains_handle (proper moment member).ordered moment.key.node moment.event
  rw [(proper moment member).handled] at gains
  rw [← Booking.map_ofEntry_entries moment.before.queue.scheduled
    (moment.before.bookings moment.key.node moment.event)] at booked
  obtain ⟨entry, listed, rfl⟩ := List.mem_map.1 booked
  have waits := gains.waiting.mem_iff.2 (List.mem_append_left _ listed)
  rcases waits_or_handled first simulation log ordered course moment member entry waits with
    left | ⟨later, logged, same⟩
  · have after := (simulation.queue.popUntil_eq_none horizon).1 finished entry left
    exact absurd due (Nat.not_le_of_lt after)
  · exact ⟨later, logged, congrArg Booking.ofEntry same⟩

end

/-- The log of the given number of events up to a horizon, as the queue lists them, and the run after
them. -/
def logUntil [SnapshotSource σ] (horizon : Nat) :
    (count : Nat) → Simulation σ → List (Moment σ) × Simulation σ
  | 0, simulation => ([], simulation)
  | count + 1, simulation =>
    match simulation.queue.events.toList.head? with
    | none => ([], simulation)
    | some (key, event) =>
      if horizon < key.time then ([], simulation)
      else
        let queue := { simulation.queue with
          events := simulation.queue.events.erase key
          now := key.time }
        let before := simulation.pop event queue
        match before.handle key.node event with
        | (result, after) =>
          match after.logUntil horizon count with
          | (log, last) => (⟨key, event, before, result, after⟩ :: log, last)

theorem course_logUntil [SnapshotSource σ] (first simulation : Simulation σ) (log : List (Moment σ))
    (course : first.Course log simulation) (horizon count : Nat)
    (counted : simulation.stats.events + count ≤ eventAllowance) :
    first.Course (log ++ (simulation.logUntil horizon count).1)
      (simulation.logUntil horizon count).2 := by
  induction count generalizing simulation log with
  | zero => simpa [logUntil] using course
  | succ count ih =>
    unfold logUntil
    split
    · simpa using course
    · rename_i key event head
      split
      · simpa using course
      · rename_i due
        have popped : simulation.queue.popUntil horizon = some (key, event,
            { simulation.queue with
              events := simulation.queue.events.erase key
              now := key.time }) := by
          rw [simulation.queue.popUntil_of_head? _ key event head, if_neg due]
        rcases handled : (simulation.pop event _).handle key.node event with ⟨result, after⟩
        have stepped := (simulation.step_of_popUntil horizon key event _ popped).1
        rw [handled] at stepped
        have events := events_step simulation after horizon result stepped
        have later := ih after _ (course.step log simulation after horizon key event _ result
          (by omega) popped handled) (by omega)
        rw [List.append_assoc] at later
        simpa [handled] using later

end Simulation
end Multicast
