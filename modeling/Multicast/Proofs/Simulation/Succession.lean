import Multicast.Proofs.Simulation.Passage
import Multicast.Proofs.Simulation.Tally
import Multicast.Proofs.Simulation.Termination

/-!
The succession of events. Main statements: the clock of a run never goes back and no event that waits
is before it; and a node receives the copies that are sent to it in the order in which they are sent,
whoever sends them.
-/

namespace Multicast
open Std

namespace Simulation
variable {σ : Type}

/-! ## The clock -/

section
variable [SnapshotSource σ] (simulation : Simulation σ) (ordered : simulation.queue.Ordered)
include ordered

theorem now_of_handle (horizon : Nat) (key : EventKey) (event : Event) (queue : EventQueue)
    (popped : simulation.queue.popUntil horizon = some (key, event, queue)) :
    let later := ((simulation.pop event queue).handle key.node event).2
    later.queue.Ordered ∧ later.now = key.time ∧ simulation.now ≤ key.time := by
  have out := simulation.queue.popped_of_popUntil queue horizon key event popped
  obtain ⟨rest, due, _⟩ := simulation.queue.ordered_of_popped queue ordered horizon key event out
  have gains := (simulation.pop event queue).gains_handle rest key.node event
  exact ⟨gains.ordered, gains.now.trans out.now, due⟩

theorem now_le_of_reached (later : Simulation σ) (reached : simulation.Reached later) :
    later.queue.Ordered ∧ simulation.now ≤ later.now := by
  apply reached_keeps (fun later => later.queue.Ordered ∧ simulation.now ≤ later.now) ?_ ?_
    simulation later ⟨ordered, Nat.le_refl _⟩ reached
  · intro horizon middle key event queue held popped
    obtain ⟨kept, now, due⟩ := middle.now_of_handle held.1 horizon key event queue popped
    refine ⟨kept, ?_⟩
    rw [now]
    exact Nat.le_trans held.2 due
  · intro horizon middle held finished
    have after := (middle.queue.popUntil_eq_none horizon).1 finished
    constructor
    · apply middle.queue.ordered_advanceTo held.1
      intro entry waits
      exact Nat.le_of_lt (after entry waits)
    · exact Nat.le_trans held.2 (Nat.le_max_left _ _)

end

theorem events_le_of_runWithin [SnapshotSource σ] (simulation : Simulation σ)
    (horizon allowance : Nat) :
    simulation.stats.events ≤ (simulation.runWithin horizon allowance).2.stats.events := by
  apply runWithin_keeps (fun later => simulation.stats.events ≤ later.stats.events) horizon
  case holds => exact Nat.le_refl _
  case keeps =>
    intro middle key event queue held popped
    have stepped := (middle.step_of_popUntil horizon key event queue popped).1
    rcases handled : (middle.pop event queue).handle key.node event with ⟨result, later⟩
    rw [handled] at stepped
    have events := events_step middle later horizon result stepped
    rw [events]
    exact Nat.le_succ_of_le held
  case rests => exact fun _ held _ => held

theorem exists_course_of_counted [SnapshotSource σ] (first simulation : Simulation σ)
    (log : List (Moment σ)) (course : first.Course log simulation) (horizon allowance : Nat)
    (counted : (simulation.runWithin horizon allowance).2.stats.events ≤ eventAllowance) :
    ∃ log, first.Course log (simulation.runWithin horizon allowance).2 := by
  induction allowance generalizing simulation log with
  | zero => exact ⟨log, course⟩
  | succ allowance ih =>
    cases popped : simulation.queue.popUntil horizon with
    | none =>
      rw [simulation.runWithin_of_step_eq_none horizon allowance (by rw [step, popped])]
      exact ⟨log, course.rest log simulation horizon popped⟩
    | some out =>
      obtain ⟨key, event, queue⟩ := out
      have stepped := (simulation.step_of_popUntil horizon key event queue popped).1
      rcases handled : (simulation.pop event queue).handle key.node event with ⟨result, later⟩
      rw [handled] at stepped
      have events := events_step simulation later horizon result stepped
      cases result with
      | error error =>
        rw [simulation.runWithin_of_step_eq_error horizon allowance error later stepped] at counted ⊢
        have within : simulation.stats.events < eventAllowance := by
          rw [events] at counted
          exact counted
        exact ⟨_, course.step log simulation later horizon key event queue _ within popped handled⟩
      | ok =>
        rw [simulation.runWithin_of_step_eq_ok horizon allowance later stepped] at counted ⊢
        have more := later.events_le_of_runWithin horizon allowance
        exact ih later _ (course.step log simulation later horizon key event queue _ (by omega) popped
          handled) counted

theorem exists_course_of_reached [SnapshotSource σ] (first simulation : Simulation σ)
    (reached : first.Reached simulation) (counted : simulation.stats.events ≤ eventAllowance) :
    ∃ log, first.Course log simulation := by
  induction reached with
  | start => exact ⟨[], .start⟩
  | run middle horizon allowance _ ih =>
    have fewer := middle.events_le_of_runWithin horizon allowance
    obtain ⟨log, course⟩ := ih (Nat.le_trans fewer counted)
    exact exists_course_of_counted first middle log course horizon allowance counted

end Simulation

/-! ## Copies in turn -/

theorem Event.exists_of_isArrival (event : Event) (arrival : event.isArrival = true) :
    ∃ packet interface, event = .arrival packet interface := by
  cases event with
  | arrival packet interface => exact ⟨packet, interface, rfl⟩
  | timer timer => cases arrival
  | burst id => cases arrival

section
variable {σ : Type}

def Moment.entry (moment : Moment σ) : EventKey × Event := (moment.key, moment.event)

/-- What the event has scheduled, under the keys it waits with, as it was scheduled. -/
def Moment.sends [SnapshotSource σ] (moment : Moment σ) : List (EventKey × Event) :=
  Booking.entries moment.before.queue.scheduled
    (moment.before.bookings moment.key.node moment.event)

theorem Moment.Proper.waiting [SnapshotSource σ] (moment : Moment σ) (proper : moment.Proper) :
    moment.after.queue.waiting.Perm (moment.sends ++ moment.before.queue.waiting) := by
  have gains := moment.before.gains_handle proper.ordered moment.key.node moment.event
  rw [proper.handled] at gains
  exact gains.waiting

end

def copyFor (node : NodeId) (entry : EventKey × Event) : Bool :=
  entry.1.node = some node && entry.2.isArrival

section
variable (node : NodeId) (one other : EventKey × Event) (own : copyFor node one = true)
include own

theorem exists_arrival_of_copyFor :
    one.1.node = some node ∧ ∃ packet interface, one.2 = .arrival packet interface := by
  unfold copyFor at own
  rw [Bool.and_eq_true, decide_eq_true_eq] at own
  exact ⟨own.1, one.2.exists_of_isArrival own.2⟩

/-- Of two copies for one node the one that was sent first comes first, unless it arrives later. -/
theorem lt_of_copyFor (own' : copyFor node other = true) (ranked : one.1.priority = one.2.priority)
    (ranked' : other.1.priority = other.2.priority) (time : one.1.time ≤ other.1.time)
    (sent : one.1.sequence < other.1.sequence) : compare one.1 other.1 = .lt := by
  obtain ⟨here, packet, interface, arrives⟩ := exists_arrival_of_copyFor node one own
  obtain ⟨here', packet', interface', arrives'⟩ := exists_arrival_of_copyFor node other own'
  rw [arrives] at ranked
  rw [arrives'] at ranked'
  apply (EventKey.compare_eq_lt one.1 other.1).2
  cases Nat.lt_or_eq_of_le time with
  | inl earlier => exact .inl earlier
  | inr same => exact .inr ⟨same, .inr ⟨by rw [ranked, ranked']; rfl, .inr ⟨by rw [here, here'], sent⟩⟩⟩

end

namespace Simulation
variable {σ : Type}

/-- Every copy in flight arrives within a link latency. -/
def Soon (simulation : Simulation σ) : Prop :=
  ∀ entry ∈ simulation.queue.waiting, ∀ packet interface, entry.2 = .arrival packet interface →
    entry.1.time ≤ simulation.now + simulation.config.linkLatency

section
variable [SnapshotSource σ] (simulation later : Simulation σ) (ordered : simulation.queue.Ordered)
  (soon : simulation.Soon) (place : Option NodeId) (event : Event)
  (result : Except SimulationError Unit)
  (handled : simulation.handle place event = (result, later))

omit soon handled ordered in
theorem time_of_entries (entry : EventKey × Event)
    (listed : entry ∈ Booking.entries simulation.queue.scheduled (simulation.bookings place event))
    (packet : Packet) (interface : InterfaceId) (arrives : entry.2 = .arrival packet interface) :
    entry.1.time = simulation.now + simulation.config.linkLatency := by
  have booked := Booking.ofEntry_mem_of_entries _ _ entry listed
  obtain ⟨_, _, _, _, same⟩ :=
    simulation.exists_copy_of_booking place event _ booked packet interface arrives
  exact congrArg Booking.time same

include soon ordered handled in
theorem soon_of_handle : later.Soon := by
  have gains := simulation.gains_handle ordered place event
  have config := simulation.config_handle place event
  rw [handled] at gains config
  intro entry waits packet interface arrives
  have now : later.now = simulation.now := gains.now
  rw [now, config]
  cases List.mem_append.1 (gains.waiting.mem_iff.1 waits) with
  | inl sent =>
    exact Nat.le_of_eq (simulation.time_of_entries place event entry sent packet interface arrives)
  | inr before => exact soon entry before packet interface arrives

include soon ordered handled in
theorem copies_waiting_of_handle (node : NodeId) :
    later.queue.waiting.filter (copyFor node) =
      simulation.queue.waiting.filter (copyFor node) ++
        (Booking.entries simulation.queue.scheduled (simulation.bookings place event)).filter
          (copyFor node) := by
  have gains := simulation.gains_handle ordered place event
  rw [handled] at gains
  have perm := (gains.waiting.trans List.perm_append_comm).filter (copyFor node)
  rw [List.filter_append] at perm
  refine List.Perm.eq_of_pairwise ?_ (later.queue.sorted_waiting.sublist List.filter_sublist) ?_ perm
  · intro one other _ _ before after
    cases (OrientedCmp.gt_of_lt before).symm.trans after
  have sent := Booking.ascending_entries simulation.queue.scheduled (simulation.bookings place event)
  have ranked := Booking.ranked_entries simulation.queue.scheduled (simulation.bookings place event)
  have numbered := Booking.lt_of_mem_entries simulation.queue.scheduled
    (simulation.bookings place event)
  have timed := simulation.time_of_entries place event
  generalize Booking.entries simulation.queue.scheduled _ = fresh at sent ranked numbered timed
  refine List.pairwise_append.2
    ⟨simulation.queue.sorted_waiting.sublist List.filter_sublist, ?_, ?_⟩
  · apply (sent.sublist List.filter_sublist).imp_of_mem
    intro one other listed listed' earlier
    obtain ⟨listed, own⟩ := List.mem_filter.1 listed
    obtain ⟨listed', own'⟩ := List.mem_filter.1 listed'
    obtain ⟨_, packet, interface, arrives⟩ := exists_arrival_of_copyFor node one own
    obtain ⟨_, packet', interface', arrives'⟩ := exists_arrival_of_copyFor node other own'
    have time := timed one listed packet interface arrives
    have time' := timed other listed' packet' interface' arrives'
    exact lt_of_copyFor node one other own own' (ranked one listed) (ranked other listed')
      (Nat.le_of_eq (time.trans time'.symm)) earlier
  · intro one waits other listed'
    obtain ⟨waits, own⟩ := List.mem_filter.1 waits
    obtain ⟨listed', own'⟩ := List.mem_filter.1 listed'
    obtain ⟨_, packet, interface, arrives⟩ := exists_arrival_of_copyFor node one own
    obtain ⟨_, packet', interface', arrives'⟩ := exists_arrival_of_copyFor node other own'
    have time := soon one waits packet interface arrives
    rw [← timed other listed' packet' interface' arrives'] at time
    exact lt_of_copyFor node one other own own' (ordered.ranked one waits) (ranked other listed') time
      (Nat.lt_of_le_of_lt (ordered.numbered one waits) (numbered other listed').1)

end

def sentTo [SnapshotSource σ] (node : NodeId) (log : List (Moment σ)) : List (EventKey × Event) :=
  (log.flatMap Moment.sends).filter (copyFor node)

def receivedBy (node : NodeId) (log : List (Moment σ)) : List (EventKey × Event) :=
  (log.map Moment.entry).filter (copyFor node)

def comingTo (node : NodeId) (simulation : Simulation σ) : List (EventKey × Event) :=
  simulation.queue.waiting.filter (copyFor node)

/-- What a run has come through: in the order of time, with numbers in the order of scheduling, and
with every node having received what was sent to it first. -/
structure InTurn [SnapshotSource σ] (log : List (Moment σ)) (simulation : Simulation σ) : Prop where
  soon : simulation.Soon
  past : ∀ moment ∈ log, moment.key.time ≤ simulation.now
  chronological : log.Pairwise fun one other => one.key.time ≤ other.key.time
  numbered : ∀ entry ∈ log.flatMap Moment.sends, entry.1.sequence ≤ simulation.queue.scheduled
  ascending : (log.flatMap Moment.sends).Pairwise fun one other =>
    one.1.sequence < other.1.sequence
  turn : ∀ node, sentTo node log = receivedBy node log ++ comingTo node simulation

theorem inTurn_start [SnapshotSource σ] (first : Simulation σ)
    (still : ∀ entry ∈ first.queue.waiting, ∀ packet interface,
      entry.2 ≠ .arrival packet interface) : InTurn [] first := by
  constructor
  case soon =>
    intro entry waits packet interface arrives
    exact absurd arrives (still entry waits packet interface)
  case turn =>
    intro node
    have nothing : comingTo node first = [] := by
      apply List.filter_eq_nil_iff.2
      intro entry waits own
      obtain ⟨_, packet, interface, arrives⟩ := exists_arrival_of_copyFor node entry own
      exact still entry waits packet interface arrives
    rw [nothing]
    rfl
  case past => simp
  case chronological => exact .nil
  case numbered => simp
  case ascending => exact .nil

section
variable [SnapshotSource σ] (simulation : Simulation σ) (log : List (Moment σ))
  (inTurn : InTurn log simulation) (horizon : Nat)
include inTurn

theorem InTurn.rest :
    InTurn log { simulation with queue := simulation.queue.advanceTo horizon } := by
  have ahead : simulation.now ≤ (simulation.queue.advanceTo horizon).now := Nat.le_max_left _ _
  constructor
  case soon =>
    intro entry waits packet interface arrives
    have before := inTurn.soon entry waits packet interface arrives
    exact Nat.le_trans before (Nat.add_le_add_right ahead _)
  case past => exact fun moment member => Nat.le_trans (inTurn.past moment member) ahead
  case chronological => exact inTurn.chronological
  case numbered => exact inTurn.numbered
  case ascending => exact inTurn.ascending
  case turn => exact inTurn.turn

variable (key : EventKey) (event : Event) (queue : EventQueue)
  (popped : simulation.queue.popUntil horizon = some (key, event, queue))
include popped

theorem InTurn.soon_pop (due : simulation.now ≤ key.time) : (simulation.pop event queue).Soon := by
  have waiting := simulation.queue.waiting_of_popUntil queue horizon key event popped
  have out := simulation.queue.popped_of_popUntil queue horizon key event popped
  intro entry waits packet interface arrives
  have before := inTurn.soon entry (by rw [waiting]; exact List.mem_cons_of_mem _ waits) packet
    interface arrives
  have now : (simulation.pop event queue).now = key.time := out.now
  have config : (simulation.pop event queue).config = simulation.config := rfl
  rw [now, config]
  omega

theorem InTurn.step (ordered : simulation.queue.Ordered) (later : Simulation σ)
    (result : Except SimulationError Unit)
    (handled : (simulation.pop event queue).handle key.node event = (result, later)) :
    InTurn (log ++ [⟨key, event, simulation.pop event queue, result, later⟩]) later := by
  have waiting := simulation.queue.waiting_of_popUntil queue horizon key event popped
  have out := simulation.queue.popped_of_popUntil queue horizon key event popped
  obtain ⟨rest, due, _⟩ := simulation.queue.ordered_of_popped queue ordered horizon key event out
  have gains := (simulation.pop event queue).gains_handle rest key.node event
  have soon := inTurn.soon_pop simulation log horizon key event queue popped due
  rw [handled] at gains
  have now : later.now = key.time := gains.now.trans out.now
  have scheduled : (simulation.pop event queue).queue.scheduled = simulation.queue.scheduled :=
    out.scheduled
  let moment : Moment σ := ⟨key, event, simulation.pop event queue, result, later⟩
  have number (entry : EventKey × Event) (sent : entry ∈ moment.sends) :
      simulation.queue.scheduled < entry.1.sequence ∧
        entry.1.sequence ≤ later.queue.scheduled := by
    have numbers := Booking.lt_of_mem_entries _ _ entry sent
    rwa [← gains.scheduled, scheduled] at numbers
  have sends : (log ++ [moment]).flatMap Moment.sends = log.flatMap Moment.sends ++ moment.sends := by
    rw [List.flatMap_append, List.flatMap_singleton]
  constructor
  case soon =>
    exact (simulation.pop event queue).soon_of_handle later rest soon key.node event result handled
  case past =>
    rw [now]
    refine List.forall_mem_append.2 ⟨fun moment member => Nat.le_trans (inTurn.past moment member) due, ?_⟩
    exact List.forall_mem_singleton.2 (Nat.le_refl _)
  case chronological =>
    refine List.pairwise_append.2 ⟨inTurn.chronological, List.pairwise_singleton _ _, ?_⟩
    intro one member other last
    rw [List.mem_singleton.1 last]
    exact Nat.le_trans (inTurn.past one member) due
  case numbered =>
    have more : simulation.queue.scheduled ≤ later.queue.scheduled := by
      rw [gains.scheduled, scheduled]
      exact Nat.le_add_right _ _
    rw [sends]
    refine List.forall_mem_append.2 ⟨fun entry sent => ?_, fun entry sent => (number entry sent).2⟩
    exact Nat.le_trans (inTurn.numbered entry sent) more
  case ascending =>
    rw [sends]
    refine List.pairwise_append.2 ⟨inTurn.ascending, Booking.ascending_entries _ _, ?_⟩
    intro one sent other new
    exact Nat.lt_of_le_of_lt (inTurn.numbered one sent) (number other new).1
  case turn =>
    intro node
    have coming := (simulation.pop event queue).copies_waiting_of_handle later rest soon key.node
      event result handled node
    have first : simulation.queue.waiting.filter (copyFor node) =
        [(key, event)].filter (copyFor node) ++ queue.waiting.filter (copyFor node) := by
      rw [waiting, ← List.filter_append, List.singleton_append]
    calc
      sentTo node (log ++ [moment])
        = sentTo node log ++ moment.sends.filter (copyFor node) := by
          unfold sentTo
          rw [sends, List.filter_append]
      _ = receivedBy node log ++ ([(key, event)].filter (copyFor node) ++
            queue.waiting.filter (copyFor node)) ++ moment.sends.filter (copyFor node) := by
          rw [inTurn.turn node, comingTo, first]
      _ = (receivedBy node log ++ [(key, event)].filter (copyFor node)) ++
            (queue.waiting.filter (copyFor node) ++ moment.sends.filter (copyFor node)) := by
          simp only [List.append_assoc]
      _ = receivedBy node (log ++ [moment]) ++ comingTo node later := by
          unfold receivedBy comingTo
          rw [coming, List.map_append, List.filter_append]
          rfl

end

section
variable [SnapshotSource σ] (first simulation : Simulation σ) (log : List (Moment σ))
  (ordered : first.queue.Ordered)
  (still : ∀ entry ∈ first.queue.waiting, ∀ packet interface, entry.2 ≠ .arrival packet interface)
  (course : first.Course log simulation)
include ordered still course

theorem inTurn_of_course : InTurn log simulation := by
  induction course with
  | start => exact inTurn_start first still
  | step log simulation later horizon key event queue result earlier _ popped handled ih =>
    obtain ⟨inOrder, _⟩ := ordered_of_course first simulation log ordered earlier
    exact ih.step simulation log horizon key event queue popped inOrder later result handled
  | rest log simulation horizon _ _ ih => exact ih.rest simulation log horizon

end

theorem InTurn.not_overtaken [SnapshotSource σ] (simulation : Simulation σ) (log : List (Moment σ))
    (inTurn : InTurn log simulation) (node : NodeId) (one other : EventKey × Event)
    (own : copyFor node one = true) (own' : copyFor node other = true)
    (sent : [one, other].Sublist (log.flatMap Moment.sends))
    (received : other ∈ log.map Moment.entry) : [one, other].Sublist (log.map Moment.entry) := by
  have pair : [one, other].filter (copyFor node) = [one, other] := by
    rw [List.filter_cons_of_pos own, List.filter_cons_of_pos own', List.filter_nil]
  have turn := sent.filter (copyFor node)
  rw [pair] at turn
  change [one, other].Sublist (sentTo node log) at turn
  have nodup : (sentTo node log).Nodup := by
    apply (inTurn.ascending.sublist List.filter_sublist).imp
    intro one other earlier same
    rw [same] at earlier
    exact Nat.lt_irrefl _ earlier
  rw [inTurn.turn node] at turn nodup
  have arrived : other ∈ receivedBy node log := List.mem_filter.2 ⟨received, own'⟩
  have apart : other ∉ comingTo node simulation := fun comes =>
    (List.nodup_append.1 nodup).2.2 other arrived other comes rfl
  obtain ⟨before, after, split, first, last⟩ := List.sublist_append_iff.1 turn
  cases after.eq_nil_or_concat with
  | inl empty =>
    rw [empty, List.append_nil] at split
    rw [split]
    exact first.trans List.filter_sublist
  | inr more =>
    -- The pair ends with a copy that has been received, so none of it is still on its way.
    obtain ⟨some, final, same⟩ := more
    rw [same, List.concat_eq_append, ← List.append_assoc] at split
    have ends : other = final := by
      have lasts := congrArg List.getLast? split
      rw [List.getLast?_concat] at lasts
      exact Option.some.inj lasts
    rw [same] at last
    exact absurd (last.subset (by rw [ends]; simp)) apart

section
variable [SnapshotSource σ] (config : SimulationConfig) (source : σ) (roles : NodeRoles)
  (requests : List Request) (positions : BitPositions)

omit [SnapshotSource σ] in
theorem no_arrival_of_start :
    ∀ entry ∈ (start config source roles requests positions).queue.waiting,
      ∀ packet interface, entry.2 ≠ .arrival packet interface := by
  intro entry waits
  apply ne_arrival_of_start config source roles requests positions (.ofEntry entry)
  exact List.mem_map_of_mem waits

/-- In every run, with either forwarding and any link latency, through refreshes, bursts and failures:
events are handled in the order of time, the clock stands at each as it is handled and, however the run
goes on, does not go back, and no event that waits is past. What an event schedules waits from then on,
and a node has received the copies that were sent to it in the order in which they were sent, as the
first of them, and those that are on their way will come in that order after them. So no copy overtakes
another that was sent to the same node before. -/
theorem copies_arrive_in_turn (log : List (Moment σ)) (simulation : Simulation σ)
    (course : (start config source roles requests positions).Course log simulation) :
    (log.Pairwise fun one other => one.key.time ≤ other.key.time) ∧
    (∀ moment ∈ log, moment.before.now = moment.key.time ∧ moment.after.now = moment.key.time ∧
      moment.key.time ≤ simulation.now) ∧
    (∀ later, simulation.Reached later → simulation.now ≤ later.now ∧
      ∀ entry ∈ later.queue.waiting, later.now ≤ entry.1.time) ∧
    (∀ moment ∈ log, moment.after.queue.waiting.Perm
      (moment.sends ++ moment.before.queue.waiting)) ∧
    (∀ node, sentTo node log = receivedBy node log ++ comingTo node simulation) ∧
    ∀ node one other, copyFor node one = true → copyFor node other = true →
      [one, other].Sublist (log.flatMap Moment.sends) → other ∈ log.map Moment.entry →
      [one, other].Sublist (log.map Moment.entry) := by
  have ordered := (gains_start config source roles requests positions).ordered
  have still := no_arrival_of_start config source roles requests positions
  obtain ⟨inOrder, proper⟩ := ordered_of_course _ simulation log ordered course
  have inTurn := inTurn_of_course _ simulation log ordered still course
  refine ⟨inTurn.chronological, fun moment member => ?_, fun later reached => ?_,
    fun moment member => (proper moment member).waiting, inTurn.turn,
    inTurn.not_overtaken simulation log⟩
  · have gains := moment.before.gains_handle (proper moment member).ordered moment.key.node
      moment.event
    rw [(proper moment member).handled] at gains
    have now := (proper moment member).now
    exact ⟨now, gains.now.trans now, inTurn.past moment member⟩
  · obtain ⟨kept, now⟩ := simulation.now_le_of_reached inOrder later reached
    exact ⟨now, kept.ahead⟩

end

/-- The copies of a packet that goes round within one instant, one of them received and one on its
way. -/
theorem copies_arrive_in_turn_whirl :
    ∃ log simulation, whirlRun.Course log simulation ∧ simulation.now = 5 ∧
      (receivedBy 1 log).length = 1 ∧ (comingTo 1 simulation).length = 1 ∧
      sentTo 1 log = receivedBy 1 log ++ comingTo 1 simulation := by
  have course := course_logUntil whirlRun whirlRun [] .start 9 4 (by decide)
  have now : (whirlRun.logUntil 9 4).2.now = 5 := by decide +kernel
  have received : (receivedBy 1 (whirlRun.logUntil 9 4).1).length = 1 := by decide +kernel
  have coming : (comingTo 1 (whirlRun.logUntil 9 4).2).length = 1 := by decide +kernel
  have turn := (copies_arrive_in_turn _ _ _ _ _ _ _ course).2.2.2.2.1 1
  exact ⟨_, _, course, now, received, coming, turn⟩

end Simulation
end Multicast
