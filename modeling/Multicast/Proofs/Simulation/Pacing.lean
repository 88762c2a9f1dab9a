import Multicast.Proofs.Simulation.Horizons
import Multicast.Proofs.Simulation.Copying
import Multicast.Proofs.Simulation.Accounts
import Multicast.Proofs.Simulation.Emission
import Multicast.Proofs.Refresh.Alone

/-!
The pace of a request. Its packets leave one gap after the other from its start until its finish, and
nothing that happens in between moves them. Main statement: in a run that comes to its horizons, a request
has sent exactly the packets that were due before its finish, each with its number.
-/

namespace Multicast
open Std

namespace Request

def instant (request : Request) (sequence : Nat) : Nat :=
  request.start + sequence * request.packetGap

/-- The packet of the given number leaves, if the run gets there: the first one of a request of some
duration does, and others do before the finish. -/
def Emits (request : Request) (sequence : Nat) : Prop :=
  request.duration ≠ 0 ∧ (sequence = 0 ∨ request.instant sequence < request.finish)

instance (request : Request) (sequence : Nat) : Decidable (request.Emits sequence) :=
  inferInstanceAs (Decidable (_ ∧ _))

def awaited (request : Request) (sequence : Nat) : List Booking :=
  if request.Emits sequence then
    [⟨some request.source, request.instant sequence, .burst request.id⟩]
  else []

section
variable (request : Request)

theorem eq_awaited_of_perm (bookings : List Booking) (sequence : Nat)
    (perm : bookings.Perm (request.awaited sequence)) : bookings = request.awaited sequence := by
  unfold awaited at perm ⊢
  split
  · next emits =>
    rw [if_pos emits] at perm
    exact List.perm_singleton.1 perm
  · next ends =>
    rw [if_neg ends] at perm
    exact List.perm_nil.1 perm

theorem eq_cons_of_awaited (booking : Booking) (others : List Booking) (sequence : Nat)
    (perm : (booking :: others).Perm (request.awaited sequence)) : request.Emits sequence ∧
      booking :: others =
        [⟨some request.source, request.instant sequence, .burst request.id⟩] := by
  have whole := request.eq_awaited_of_perm _ _ perm
  unfold awaited at whole
  split at whole
  · next emits => exact ⟨emits, whole⟩
  · cases whole

theorem instant_zero : request.instant 0 = request.start := by
  unfold instant
  omega

theorem instant_succ (sequence : Nat) :
    request.instant (sequence + 1) = request.instant sequence + request.packetGap := by
  unfold instant
  rw [Nat.succ_mul, Nat.add_assoc]

theorem instant_mono (sequence later : Nat) (before : sequence ≤ later) :
    request.instant sequence ≤ request.instant later :=
  Nat.add_le_add_left (Nat.mul_le_mul_right _ before) _

theorem Emits.of_le (sequence later : Nat) (before : sequence ≤ later) (emits : request.Emits later) :
    request.Emits sequence := by
  obtain ⟨lasts, zero | early⟩ := emits
  · exact ⟨lasts, .inl (Nat.le_zero.1 (zero ▸ before))⟩
  · exact ⟨lasts, .inr (Nat.lt_of_le_of_lt (request.instant_mono sequence later before) early)⟩

/-- All packets of a request leave before its finish, but for the first one of a request that starts at
the last instant. -/
theorem emits_iff (sequence : Nat) : request.Emits sequence ↔ request.duration ≠ 0 ∧
    (request.instant sequence < request.finish ∨ sequence = 0 ∧ lastInstant ≤ request.start) := by
  refine and_congr_right fun lasts => ⟨?_, ?_⟩
  · rintro (rfl | early)
    · rw [instant_zero]
      unfold finish instantAfter
      omega
    · exact .inl early
  · rintro (early | ⟨zero, _⟩)
    · exact .inr early
    · exact .inl zero

end

end Request

def bursts (id : RequestId) (bookings : List Booking) : List Booking :=
  bookings.filter (·.event = .burst id)

theorem bursts_append (id : RequestId) (bookings more : List Booking) :
    bursts id (bookings ++ more) = bursts id bookings ++ bursts id more := List.filter_append ..

theorem bursts_cons (id : RequestId) (key : EventKey) (event : Event) (rest : List Booking) :
    bursts id (.ofEntry (key, event) :: rest) =
      if event = .burst id then .ofEntry (key, event) :: bursts id rest else bursts id rest := by
  unfold bursts
  by_cases burst : event = .burst id
  · rw [if_pos burst]
    exact List.filter_cons_of_pos (decide_eq_true burst)
  · rw [if_neg burst]
    exact List.filter_cons_of_neg fun same => burst (of_decide_eq_true same)

def Packet.number? (packet : Packet) : Forwarding → Option UInt64
  | .routeTable => packet.sequence?
  | .bier => packet.copy?.map Copy.sequence

theorem RefreshDriver.number?_of_emit {σ : Type} (driver : RefreshDriver σ) (request : Request)
    (hopLimit sequence : Nat) (effects : List Effect)
    (emitted : driver.emit request hopLimit sequence = .ok effects) (receiver : NodeId)
    (entered : InterfaceId) (copy : Packet) (sent : .copy receiver entered copy ∈ effects) :
    copy.number? driver.config.forwarding = some (UInt64.ofNat sequence) := by
  unfold emit at emitted
  cases mode : driver.config.forwarding with
  | routeTable =>
    rw [mode] at emitted
    dsimp only at emitted
    unfold emitRouted at emitted
    split at emitted
    · cases emitted
    · cases emitted
      obtain ⟨rfl, _⟩ := driver.eq_of_transmit _ _ _ _ _ _ sent
      exact sequence?_routedPacket request hopLimit sequence _
    · cases emitted
      simp at sent
  | bier =>
    rw [mode] at emitted
    obtain ⟨each, _, _, split⟩ := driver.split_of_emitBier request hopLimit sequence effects emitted
    obtain ⟨carried, found⟩ := (each _ sent).2 receiver entered copy rfl
    have listed : carried ∈ effects.filterMap Effect.copy? := List.mem_filterMap.2 ⟨_, sent, found⟩
    unfold Packet.number?
    dsimp only
    rw [found, Option.map_some, split.sequence carried listed]

def Moment.emission? {σ : Type} (id : RequestId) (moment : Moment σ) : Option (Nat × Nat) :=
  if moment.event = .burst id then some (moment.key.time, moment.before.sent id) else none

namespace Simulation
variable {σ : Type} [SnapshotSource σ]

theorem exists_effects_of_burst (simulation later : Simulation σ) (node : Option NodeId)
    (id : RequestId) (handled : simulation.handle node (.burst id) = (.ok (), later)) :
    ∃ effects, simulation.effects node (.burst id) = .ok effects := by
  have succeeds := simulation.result_handle node (.burst id) fun _ => Event.noConfusion
  rw [handled] at succeeds
  cases happens : simulation.effects node (.burst id) with
  | error error =>
    rw [happens] at succeeds
    cases succeeds
  | ok effects => exact ⟨effects, rfl⟩

section
variable (simulation : Simulation σ) (node : Option NodeId)

theorem bursts_bookings_of_ne (event : Event) (id : RequestId) (other : event ≠ .burst id) :
    bursts id (simulation.bookings node event) = [] := by
  refine List.filter_eq_nil_iff.2 fun booking booked => ?_
  rw [decide_eq_true_eq]
  rcases simulation.copy_or_sequel_of_mem_bookings node event booking booked with
    ⟨_, _, _, _, _, _, rfl⟩ | sequel
  · exact Event.noConfusion
  · rcases simulation.event_of_sequels event booking sequel with ⟨_, _, _, timer⟩ | ⟨_, rfl, again⟩
    · rw [timer]
      exact Event.noConfusion
    · rwa [again]

theorem bursts_bookings_burst (request : Request)
    (found : simulation.driver.request? request.id = some request) (effects : List Effect)
    (happens : simulation.effects node (.burst request.id) = .ok effects) :
    bursts request.id (simulation.bookings node (.burst request.id)) =
      simulation.nextBurst request := by
  have arrivals : bursts request.id (effects.filterMap
      (Effect.booking? (simulation.now + simulation.config.linkLatency))) = [] := by
    refine List.filter_eq_nil_iff.2 fun booking booked => ?_
    obtain ⟨effect, _, made⟩ := List.mem_filterMap.1 booked
    cases effect with
    | copy receiver interface packet =>
      cases made
      simp
    | _ => cases made
  rw [simulation.bookings_of_ok node _ effects happens, bursts_append, arrivals, List.nil_append]
  simp only [sequels, found, Option.map_some, Option.getD_some]
  refine List.filter_eq_self.2 fun booking booked => ?_
  unfold nextBurst at booked
  split at booked
  · obtain rfl := List.mem_singleton.1 booked
    exact decide_eq_true rfl
  · cases booked

end

omit [SnapshotSource σ] in
theorem nextBurst_eq_awaited (simulation : Simulation σ) (request : Request) (sequence : Nat)
    (lasts : request.duration ≠ 0) (now : simulation.now = request.instant sequence) :
    simulation.nextBurst request = request.awaited (sequence + 1) := by
  have again : request.Emits (sequence + 1) ↔ request.instant (sequence + 1) < request.finish := by
    unfold Request.Emits
    simp [lasts]
  unfold nextBurst Request.awaited
  rw [now, ← request.instant_succ sequence]
  simp only [again]

/-- The request keeps its pace: the only burst of it that waits is the one after the packets it has sent,
which are all counted. -/
structure Paces (requests : List Request) (request : Request) (simulation : Simulation σ) : Prop where
  ordered : simulation.queue.Ordered
  requests : simulation.driver.requests = requests
  awaits : bursts request.id simulation.queue.booked =
    request.awaited (simulation.sent request.id)
  counted : simulation.requestStats[request.id]?.map RequestStats.sent =
    some (simulation.sent request.id)

section
omit [SnapshotSource σ]
variable (request : Request) (horizon : Nat) (final : Simulation σ)

theorem lt_sent_iff (requests : List Request) (paces : final.Paces requests request)
    (idle : final.queue.popUntil horizon = none)
    (emitted : ∀ sequence < final.sent request.id,
      request.Emits sequence ∧ request.instant sequence ≤ horizon) (sequence : Nat) :
    sequence < final.sent request.id ↔
      request.Emits sequence ∧ request.instant sequence ≤ horizon := by
  refine ⟨emitted sequence, ?_⟩
  rintro ⟨emits, due⟩
  by_contra above
  have ahead := Nat.le_of_not_lt above
  have next : request.awaited (final.sent request.id) =
      [⟨some request.source, request.instant (final.sent request.id), .burst request.id⟩] :=
    if_pos (Request.Emits.of_le request _ _ ahead emits)
  have booked := List.mem_of_mem_filter (paces.awaits.trans next ▸ List.mem_singleton_self _)
  obtain ⟨entry, waits, same⟩ := List.mem_map.1 booked
  have past := (EventQueue.popUntil_eq_none _ _).1 idle entry waits
  have time : entry.1.time = request.instant (final.sent request.id) := congrArg Booking.time same
  have before := request.instant_mono _ _ ahead
  omega

theorem lt_size_of_lt_sent
    (exactly : ∀ sequence, sequence < final.sent request.id ↔
      request.Emits sequence ∧ request.instant sequence ≤ horizon)
    (sequence : Nat) (below : sequence < final.sent request.id) : sequence < UInt64.size := by
  obtain ⟨⟨lasts, zero | early⟩, due⟩ := (exactly sequence).1 below
  · rw [zero]
    decide
  · rcases Nat.eq_zero_or_pos request.packetGap with none | positive
    · have same : request.instant (final.sent request.id) = request.instant sequence := by
        simp only [Request.instant, none, Nat.mul_zero]
      have again := (exactly (final.sent request.id)).2 ⟨⟨lasts, .inr (same ▸ early)⟩, same ▸ due⟩
      exact absurd again (Nat.lt_irrefl _)
    · have finishes : request.finish ≤ lastInstant := Nat.min_le_right _ _
      have numbers : sequence ≤ request.instant sequence :=
        Nat.le_trans (Nat.le_mul_of_pos_right sequence positive) (Nat.le_add_left _ _)
      have last : lastInstant < UInt64.size := by decide
      omega

end

section
variable (request : Request) (simulation later : Simulation σ)
  (known : simulation.driver.request? request.id = some request) (node : Option NodeId)
  (event : Event) (handled : simulation.handle node event = (.ok (), later))
include known handled

theorem sent_of_handled : later.sent request.id =
    simulation.sent request.id + if event = .burst request.id then 1 else 0 := by
  have sends := simulation.sent_handle node event request.id
  rw [handled, known, Option.isSome_some] at sends
  simpa only [and_true] using sends

omit known in
theorem counted_of_handled (counted : simulation.requestStats[request.id]?.map RequestStats.sent =
    some (simulation.sent request.id)) :
    later.requestStats[request.id]?.map RequestStats.sent = some (later.sent request.id) := by
  have counts := simulation.requestStats_handle node event request.id
  have sends := simulation.sent_handle node event request.id
  rw [handled] at counts sends
  obtain ⟨stats, found, same⟩ := Option.map_eq_some_iff.1 counted
  rw [counts, sends, found, Option.map_some, Option.map_some, same]

theorem bursts_of_handled (ordered : simulation.queue.Ordered) :
    (bursts request.id later.queue.booked).Perm
      ((if event = .burst request.id then simulation.nextBurst request else []) ++
        bursts request.id simulation.queue.booked) := by
  have gains := simulation.gains_handle ordered node event
  rw [handled] at gains
  have gained : (bursts request.id later.queue.booked).Perm
      (bursts request.id (simulation.bookings node event ++ simulation.queue.booked)) :=
    gains.booked.filter _
  rw [bursts_append] at gained
  split
  · next burst =>
    subst burst
    obtain ⟨effects, happens⟩ := exists_effects_of_burst simulation later node request.id handled
    rwa [bursts_bookings_burst simulation node request known effects happens] at gained
  · next other => rwa [bursts_bookings_of_ne simulation node event request.id other] at gained

end

section
variable (requests : List Request) (distinct : requests.Pairwise fun one other => one.id ≠ other.id)
  (request : Request) (member : request ∈ requests)
include distinct member

omit [SnapshotSource σ] in
theorem paces_start (config : SimulationConfig) (source : σ) (roles : NodeRoles)
    (positions : BitPositions) :
    (start config source roles requests positions).Paces requests request where
  ordered := (gains_start config source roles requests positions).ordered
  requests := rfl
  awaits := by
    have booked := (booked_start config source roles requests positions).filter
      (·.event = .burst request.id)
    have own := Request.filter_key Request.id requests distinct request member
    refine request.eq_awaited_of_perm _ _ (booked.trans (.of_eq ?_))
    rw [List.filter_cons_of_neg (by simp), List.filter_map, Function.comp_def]
    simp only [Event.burst.injEq]
    rw [List.filter_comm, own, List.filter_singleton]
    rw [sent_start]
    unfold Request.awaited Request.Emits
    by_cases lasts : request.duration = 0
    · simp [lasts]
    · simp [lasts, request.instant_zero]
  counted := by
    have counters := addCounters_of_mem requests distinct ∅ request member
    exact congrArg (Option.map RequestStats.sent) counters

omit [SnapshotSource σ] in
theorem request?_of_requests (driver : RefreshDriver σ) (same : driver.requests = requests) :
    driver.request? request.id = some request :=
  driver.request?_of_mem (same ▸ distinct) request (same ▸ member)

/-- What an event does to the pace of a request: a burst of it sends the next packet at its instant, and
other events send none. -/
theorem Paces.handle (simulation later : Simulation σ) (paces : simulation.Paces requests request)
    (horizon : Nat) (key : EventKey) (event : Event) (queue : EventQueue)
    (popped : simulation.queue.popUntil horizon = some (key, event, queue))
    (handled : (simulation.pop event queue).handle key.node event = (.ok (), later)) :
    later.Paces requests request ∧
      ((event ≠ .burst request.id ∧ later.sent request.id = simulation.sent request.id) ∨
        (event = .burst request.id ∧ later.sent request.id = simulation.sent request.id + 1 ∧
          request.Emits (simulation.sent request.id) ∧
          key.time = request.instant (simulation.sent request.id))) := by
  have out := simulation.queue.popped_of_popUntil queue horizon key event popped
  obtain ⟨rest, _, _⟩ := simulation.queue.ordered_of_popped queue paces.ordered horizon key event out
  have setting := (simulation.pop event queue).setting_handle key.node event
  rw [handled] at setting
  have drives : later.driver.requests = requests :=
    (congrArg (fun setting => setting.2.2.1) setting).trans paces.requests
  have known : (simulation.pop event queue).driver.request? request.id = some request :=
    request?_of_requests requests distinct request member _ paces.requests
  have sends : later.sent request.id =
      simulation.sent request.id + if event = .burst request.id then 1 else 0 :=
    sent_of_handled request _ later known key.node event handled
  have counted := counted_of_handled request _ later key.node event handled paces.counted
  have ordered : later.queue.Ordered := by
    have gains := (simulation.pop event queue).gains_handle rest key.node event
    rw [handled] at gains
    exact gains.ordered
  have waits : (bursts request.id later.queue.booked).Perm
      ((if event = .burst request.id then (simulation.pop event queue).nextBurst request else []) ++
        bursts request.id queue.booked) :=
    bursts_of_handled request _ later known key.node event handled rest
  have left : (request.awaited (simulation.sent request.id)).Perm
      (bursts request.id (.ofEntry (key, event) :: queue.booked)) :=
    paces.awaits ▸ out.booked.filter _
  rw [bursts_cons] at left
  by_cases burst : event = .burst request.id
  · rw [if_pos burst] at sends waits left
    obtain ⟨emits, alone⟩ := request.eq_cons_of_awaited _ _ _ left.symm
    obtain ⟨own, others⟩ := List.cons.inj alone
    have time : key.time = request.instant (simulation.sent request.id) := congrArg Booking.time own
    have next := nextBurst_eq_awaited (simulation.pop event queue) request
      (simulation.sent request.id) emits.1 (out.now.trans time)
    refine ⟨⟨ordered, drives, ?_, counted⟩, .inr ⟨burst, sends, emits, time⟩⟩
    rw [others, List.append_nil, next, ← sends] at waits
    exact request.eq_awaited_of_perm _ _ waits
  · rw [if_neg burst] at sends waits left
    refine ⟨⟨ordered, drives, ?_, counted⟩, .inl ⟨burst, sends⟩⟩
    rw [sends]
    exact request.eq_awaited_of_perm _ _ (waits.trans left.symm)

theorem Paces.run (horizon : Nat) (simulation final : Simulation σ) (log : List (Moment σ))
    (handles : Handles horizon simulation log final) (paces : simulation.Paces requests request) :
    final.Paces requests request ∧ final.queue.popUntil horizon = none ∧
      ∃ count, final.sent request.id = simulation.sent request.id + count ∧
        log.filterMap (Moment.emission? request.id) =
          (List.range' (simulation.sent request.id) count).map (fun sequence =>
            (request.instant sequence, sequence)) ∧
        ∀ sequence ∈ List.range' (simulation.sent request.id) count,
          request.Emits sequence ∧ request.instant sequence ≤ horizon := by
  induction handles with
  | rests simulation idle =>
    have later := (simulation.queue.popUntil_eq_none horizon).1 idle
    refine ⟨⟨simulation.queue.ordered_advanceTo paces.ordered horizon fun entry waits =>
      Nat.le_of_lt (later entry waits), paces.requests, paces.awaits, paces.counted⟩, idle, 0, rfl, rfl,
      List.forall_mem_nil _⟩
  | event simulation later final key event queue log popped handled rest ih =>
    obtain ⟨next, sends⟩ := Paces.handle requests distinct request member simulation later paces horizon
      key event queue popped handled
    obtain ⟨last, idle, count, sent, emissions, emitted⟩ := ih next
    have due := (simulation.queue.popped_of_popUntil queue horizon key event popped).due
    refine ⟨last, idle, ?_⟩
    rw [List.filterMap_cons]
    rcases sends with ⟨other, same⟩ | ⟨burst, more, emits, time⟩
    · rw [same] at sent emissions emitted
      refine ⟨count, sent, ?_, emitted⟩
      rw [Moment.emission?, if_neg other]
      exact emissions
    · rw [more] at sent emissions emitted
      refine ⟨count + 1, by omega, ?_, ?_⟩
      · rw [Moment.emission?, if_pos burst, List.range'_succ, List.map_cons, emissions, time]
        rfl
      · rw [List.range'_succ]
        exact List.forall_mem_cons.2 ⟨⟨emits, time ▸ due⟩, emitted⟩

section
variable (config : SimulationConfig) (source : σ) (roles : NodeRoles) (positions : BitPositions)

theorem numbered_of_emission (horizon : Nat) (final : Simulation σ) (log : List (Moment σ))
    (handles : Handles horizon (start config source roles requests positions) log final)
    (moment : Moment σ) (logged : moment ∈ log) (time sequence : Nat)
    (emission : moment.emission? request.id = some (time, sequence)) :
    ∃ effects, moment.before.effects moment.key.node moment.event = .ok effects ∧
      ∀ receiver interface packet, .copy receiver interface packet ∈ effects →
        packet.request = request.id ∧
          packet.number? config.refresh.forwarding = some (UInt64.ofNat sequence) := by
  unfold Moment.emission? at emission
  split at emission
  · next burst =>
    cases emission
    obtain ⟨succeeded, setting⟩ := Handles.moment horizon _ final log handles moment logged
    rw [burst] at succeeded ⊢
    obtain ⟨effects, happens⟩ := exists_effects_of_burst _ _ _ _ succeeded
    have requests_eq : moment.before.driver.requests = requests :=
      congrArg (fun setting => setting.2.2.1) setting
    have mode : moment.before.driver.config.forwarding = config.refresh.forwarding :=
      congrArg (fun setting => setting.1.forwarding) setting
    have known : moment.before.driver.request? request.id = some request :=
      request?_of_requests requests distinct request member _ requests_eq
    refine ⟨effects, happens, fun receiver interface packet sent => ?_⟩
    rw [effects_of_request? _ _ _ _ known] at happens
    have addressed := RefreshDriver.addressed_of_emit _ _ _ _ effects happens _ _ _ sent
    have numbered := RefreshDriver.number?_of_emit _ _ _ _ effects happens _ _ _ sent
    exact ⟨addressed.numbered, mode ▸ numbered⟩
  · cases emission

variable (horizon : Nat) (later : List Nat) (final : Simulation σ)
  (comes : (start config source roles requests positions).Comes (horizon :: later) final)
include comes

/-- In a run that comes to its horizons without an error, a request of some duration has sent its packets
at the instants from its start on, a gap apart, that are before its finish and not after the latest
horizon, numbered from zero and each of them once; a request of no duration has sent none. What else
happens does not matter. The one exception is a request that starts at the last instant: it is finished
before it starts, and sends its first packet all the same. -/
theorem emissions_of_comes :
    (∃ log, Handles (latest horizon later) (start config source roles requests positions) log final ∧
      log.filterMap (Moment.emission? request.id) =
        (List.range (final.sent request.id)).map (fun sequence =>
          (request.instant sequence, sequence)) ∧
      ∀ moment ∈ log, ∀ time sequence, moment.emission? request.id = some (time, sequence) →
        ∃ effects, moment.before.effects moment.key.node moment.event = .ok effects ∧
          ∀ receiver interface packet, .copy receiver interface packet ∈ effects →
            packet.request = request.id ∧
              (packet.number? config.refresh.forwarding).map UInt64.toNat = some sequence) ∧
    (∀ sequence, sequence < final.sent request.id ↔ request.duration ≠ 0 ∧
      request.instant sequence ≤ latest horizon later ∧
      (request.instant sequence < request.finish ∨
        sequence = 0 ∧ lastInstant ≤ request.start)) ∧
    ∃ stats, final.requestStats[request.id]? = some stats ∧ stats.sent = final.sent request.id := by
  have ends := endsAt_of_comes _ final horizon later comes
  obtain ⟨log, handles⟩ := exists_log_of_endsAt _ final _ ends
  obtain ⟨paces, idle, count, sent, emissions, emitted⟩ :=
    Paces.run requests distinct request member _ _ final log handles
      (paces_start requests distinct request member config source roles positions)
  rw [sent_start, Nat.zero_add] at sent
  rw [sent_start, ← List.range_eq_range', ← sent] at emissions emitted
  have exactly := lt_sent_iff request _ final requests paces idle
    fun sequence below => emitted sequence (List.mem_range.2 below)
  refine ⟨⟨log, handles, emissions, fun moment logged time sequence emission => ?_⟩,
    fun sequence => ?_, Option.map_eq_some_iff.1 paces.counted⟩
  · obtain ⟨effects, happens, numbered⟩ := numbered_of_emission requests distinct request member config
      source roles positions _ final log handles moment logged time sequence emission
    have listed : (time, sequence) ∈ log.filterMap (Moment.emission? request.id) :=
      List.mem_filterMap.2 ⟨moment, logged, emission⟩
    rw [emissions] at listed
    obtain ⟨number, below, same⟩ := List.mem_map.1 listed
    obtain rfl : number = sequence := congrArg Prod.snd same
    have small := lt_size_of_lt_sent request _ final exactly number (List.mem_range.1 below)
    refine ⟨effects, happens, fun receiver interface packet sent => ?_⟩
    obtain ⟨own, header⟩ := numbered receiver interface packet sent
    refine ⟨own, ?_⟩
    rw [header, Option.map_some, UInt64.toNat_ofNat_of_lt' small]
  · rw [exactly sequence, request.emits_iff, and_assoc, and_comm (a := _ ∨ _)]

end

end

def pacedRequests : List Request :=
  [⟨7, 0, (∅ : NodeSet).insertMany [1, 3], 1200000.0, 3, 25, "", ""⟩,
    ⟨9, 0, (∅ : NodeSet).insertMany [1, 3], 1200000.0, 4, 0, "", ""⟩]

def pacedRun : Simulation SnapshotPlan :=
  start { refresh := { interval := 10, finish := 30, forwarding := .bier }, linkLatency := 7 }
    (.diamond 10) (.terrestrial 4) pacedRequests
    ((BitPositions.sequential [1, 3]).toOption.getD .empty)

theorem emissions_of_comes_paced :
    ∃ final, pacedRun.Comes [12, 5, 23] final ∧
      (∃ log, Handles 23 pacedRun log final ∧
        log.filterMap (Moment.emission? 7) = [(3, 0), (13, 1), (23, 2)]) ∧
      (∃ stats, final.requestStats[(7 : RequestId)]? = some stats ∧ stats.sent = 3) ∧
      final.sent 9 = 0 := by
  have first := pacedRun.runWithin_of_logUntil 12 4 (by decide +kernel) (by decide +kernel)
  have second := ((pacedRun.logUntil 12 4).2.advance 12).runWithin_of_logUntil 5 0
    (by decide +kernel) (by decide +kernel)
  have third := (((pacedRun.logUntil 12 4).2.advance 12).advance 5).runWithin_of_logUntil 23 6
    (by decide +kernel) (by decide +kernel)
  obtain ⟨final, comes⟩ : ∃ final, pacedRun.Comes [12, 5, 23] final :=
    ⟨_, .goesOn _ _ _ 12 _ ⟨by simp, _, first⟩ (.goesOn _ _ _ 5 _ ⟨by simp, _, second⟩
      (.goesOn _ _ _ 23 _ ⟨by simp, _, third⟩ (.stays _)))⟩
  have distinct : pacedRequests.Pairwise fun one other => one.id ≠ other.id := by decide
  obtain ⟨⟨log, handles, emissions, _⟩, exactly, stats, found, counted⟩ :=
    emissions_of_comes pacedRequests distinct pacedRequests[0] (List.getElem_mem _) _ _ _ _ 12 [5, 23]
      final comes
  obtain ⟨_, silent, _⟩ :=
    emissions_of_comes pacedRequests distinct pacedRequests[1] (List.getElem_mem _) _ _ _ _ 12 [5, 23]
      final comes
  have three : final.sent pacedRequests[0].id = 3 := by
    have two := (exactly 2).2 (by decide +kernel)
    have past := mt (exactly 3).1 (by decide +kernel)
    omega
  rw [three] at emissions counted
  refine ⟨final, comes, ⟨log, handles, emissions.trans (by decide +kernel)⟩, ⟨stats, found, counted⟩, ?_⟩
  exact Nat.eq_zero_of_not_pos (mt (silent 0).1 (by decide +kernel))

def lastRun : Simulation SnapshotPlan :=
  start { refresh := { interval := 10, finish := 10, forceStatic := true } } (.always (.diamond 0 1))
    (.terrestrial 4) [lastRequest] .empty

/-- A request that is finished before it starts sends a packet nevertheless. -/
theorem sends_past_finish_last :
    (∀ sequence, ¬lastRequest.instant sequence < lastRequest.finish) ∧
      lastRequest.duration = 5 ∧ 1 ≤ lastRequest.packetGap ∧
      ∃ final, lastRun.runUntil lastInstant = (.finished, final) ∧
        final.sent lastRequest.id = 1 ∧ final.stats.packetsSent = 1 ∧
        final.requestStats[lastRequest.id]?.map RequestStats.sent = some 1 := by
  have ran := lastRun.runWithin_of_logUntil lastInstant 2 (by decide +kernel) (by decide +kernel)
  have allowed : eventAllowance = 2 + 1 + (eventAllowance - 3) := by decide
  have reached := lastRun.runWithin_add lastInstant (2 + 1) (eventAllowance - 3) (by rw [ran]; simp)
  rw [← allowed, ran] at reached
  refine ⟨fun sequence => ?_, rfl, by decide +kernel, _, reached, by decide +kernel,
    by decide +kernel, by decide +kernel⟩
  have finishes : lastRequest.finish = lastInstant := by decide
  have begins : lastRequest.start = lastInstant := rfl
  unfold Request.instant
  omega

end Simulation
end Multicast
