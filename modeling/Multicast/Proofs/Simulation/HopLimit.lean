import Multicast.Proofs.Simulation.Succession

/-!
The hop limit of a run. A copy has crossed one link when it comes from its source, and one link more
than the copy that a node has received when the node sends it on. Main statement: the hop limit that a
copy has left tells how many links it has crossed, whatever the forwarding state is on its way, and the
copies that are dropped for it are those that have crossed as many links as it allows.
-/

namespace Multicast
open Std

namespace Packet

theorem forwarded?_of_spent (packet : Packet) (spent : packet.hopLimit ≤ 1) (header : Bytes) :
    packet.forwarded? header = none :=
  if_pos spent

theorem exists_forwarded? (packet : Packet) (left : 1 < packet.hopLimit) (header : Bytes) :
    ∃ copy, packet.forwarded? header = some copy :=
  ⟨_, if_neg (Nat.not_le_of_lt left)⟩

end Packet

namespace RefreshDriver
variable {σ : Type} (driver : RefreshDriver σ)

def outputInterfaces (node : NodeId) (packet : Packet) : Nat :=
  match driver.routing.arbitrate node packet.source packet.origin packet.group with
  | .ok (.forward interfaces) => interfaces.length
  | _ => 0

def outputReplicas (node : NodeId) (packet : Packet) : Nat :=
  match BierHeader.decode packet.header, driver.bierTable? node with
  | .ok (header, _), some table =>
    match table.process header.bitstring with
    | .ok decision => decision.replicas.length
    | .error _ => 0
  | _, _ => 0

/-- How often a packet that arrives is to leave a node. -/
def outputs (node : NodeId) (packet : Packet) : Nat :=
  match driver.config.forwarding with
  | .routeTable => driver.outputInterfaces node packet
  | .bier => driver.outputReplicas node packet

theorem ne_expired_of_transmit (node : NodeId) (interface : InterfaceId) (packet : Packet)
    (effect : Effect) (sent : effect ∈ driver.transmit node interface packet) :
    effect ≠ .expired := by
  rintro rfl
  unfold transmit at sent
  split at sent
  · simp at sent
  · simp at sent

theorem ne_expired_of_sendTo (node neighbor : NodeId) (packet : Packet) :
    driver.sendTo node neighbor packet ≠ .expired := by
  unfold sendTo
  split
  · nofun
  · nofun

theorem ne_expired_of_emit (request : Request) (hopLimit sequence : Nat) (effects : List Effect)
    (emitted : driver.emit request hopLimit sequence = .ok effects) (effect : Effect)
    (happens : effect ∈ effects) : effect ≠ .expired := by
  unfold emit at emitted
  split at emitted
  · unfold emitRouted at emitted
    split at emitted
    · cases emitted
    · cases emitted
      exact driver.ne_expired_of_transmit _ _ _ effect happens
    · cases emitted
      rw [List.mem_singleton.1 happens]
      nofun
  · unfold emitBier at emitted
    split at emitted
    · cases emitted
    · split at emitted
      · cases emitted
      · dsimp only at emitted
        split at emitted
        · cases emitted
        · cases emitted
          obtain ⟨replica, _, rfl⟩ := List.mem_map.1 happens
          exact driver.ne_expired_of_sendTo _ _ _

section
variable (node : NodeId) (packet : Packet)

theorem countP_relay (interface : InterfaceId) :
    (driver.relay node packet interface).countP (· = .expired) =
      if packet.hopLimit ≤ 1 then 1 else 0 := by
  unfold relay
  by_cases spent : packet.hopLimit ≤ 1
  · rw [if_pos spent, packet.forwarded?_of_spent spent]
    rfl
  · rw [if_neg spent]
    obtain ⟨copy, forwarded⟩ := packet.exists_forwarded? (Nat.lt_of_not_le spent) packet.header
    rw [forwarded]
    apply List.countP_eq_zero.2
    intro effect sent
    simpa using driver.ne_expired_of_transmit _ _ _ effect sent

theorem countP_relays (interfaces : List InterfaceId) :
    (interfaces.flatMap (driver.relay node packet)).countP (· = .expired) =
      if packet.hopLimit ≤ 1 then interfaces.length else 0 := by
  induction interfaces with
  | nil => simp
  | cons interface rest ih =>
    rw [List.flatMap_cons, List.countP_append, countP_relay, ih, List.length_cons]
    split
    · exact Nat.add_comm _ _
    · rfl

theorem countP_relayReplicas (header : BierHeader) (replicas : List Replica) :
    (replicas.map (driver.relayReplica node packet header)).countP (· = .expired) =
      if packet.hopLimit ≤ 1 then replicas.length else 0 := by
  rw [List.countP_map]
  split
  · rename_i spent
    apply List.countP_eq_length.2
    intro replica _
    simp only [Function.comp_apply, relayReplica, packet.forwarded?_of_spent spent, decide_true]
  · rename_i left
    apply List.countP_eq_zero.2
    intro replica _
    obtain ⟨copy, forwarded⟩ := packet.exists_forwarded? (Nat.lt_of_not_le left)
      (header.withBitstring replica.bitstring).encode
    simp only [Function.comp_apply, relayReplica, forwarded, decide_eq_true_eq]
    exact driver.ne_expired_of_sendTo _ _ _

theorem countP_receive (effects : List Effect) (received : driver.receive node packet = .ok effects) :
    effects.countP (· = .expired) =
      if packet.hopLimit ≤ 1 then driver.outputs node packet else 0 := by
  have taken (here : Bool) : (if here then [Effect.deliver] else []).countP (· = .expired) = 0 := by
    cases here <;> rfl
  unfold receive at received
  split at received
  · cases received
  · dsimp only at received
    unfold outputs
    cases mode : driver.config.forwarding with
    | routeTable =>
      rw [mode] at received
      dsimp only at received ⊢
      unfold receiveRouted at received
      unfold outputInterfaces
      split at received
      · cases received
      · cases decided : driver.routing.arbitrate node packet.source packet.origin packet.group with
        | error error =>
          rw [decided] at received
          cases received
        | ok decision =>
          rw [decided] at received
          cases decision with
          | forward interfaces =>
            cases received
            rw [List.countP_append, taken, countP_relays, Nat.zero_add]
          | outbound interface =>
            cases received
            simp
          | noRoute =>
            cases received
            simp
    | bier =>
      rw [mode] at received
      dsimp only at received ⊢
      obtain ⟨header, rest, table, decision, decoded, located, processed, rfl⟩ :=
        driver.receiveBier_eq_ok _ _ _ _ received
      unfold outputReplicas
      rw [List.countP_append, taken, countP_relayReplicas, Nat.zero_add, decoded, located]
      dsimp only
      rw [processed]

end
end RefreshDriver

namespace Simulation
variable {σ : Type}

/-- An event is the arrival of a copy on a link, counted from the source: the first if a burst has sent
the copy, and the next one after that of the copy that has arrived if its arrival has. -/
inductive Crosses [SnapshotSource σ] (log : List (Moment σ)) : Nat → EventKey × Event → Prop where
  | first (moment : Moment σ) (member : moment ∈ log) (burst : moment.event.isBurst = true)
    (entry : EventKey × Event) (sent : entry ∈ moment.sends) (arrives : entry.2.isArrival = true) :
    Crosses log 1 entry
  | next (moment : Moment σ) (member : moment ∈ log) (links : Nat)
    (crossed : Crosses log links moment.entry) (entry : EventKey × Event)
    (sent : entry ∈ moment.sends) (arrives : entry.2.isArrival = true) :
    Crosses log (links + 1) entry

theorem Crosses.mono [SnapshotSource σ] (log more : List (Moment σ)) (links : Nat)
    (entry : EventKey × Event) (crosses : Crosses log links entry) :
    Crosses (log ++ more) links entry := by
  induction crosses with
  | first moment member burst entry sent arrives =>
    exact .first moment (List.mem_append_left _ member) burst entry sent arrives
  | next moment member links _ entry sent arrives ih =>
    exact .next moment (List.mem_append_left _ member) links ih entry sent arrives

theorem Crosses.isArrival [SnapshotSource σ] (log : List (Moment σ)) (links : Nat)
    (entry : EventKey × Event) (crosses : Crosses log links entry) : entry.2.isArrival = true := by
  cases crosses with
  | first _ _ _ _ _ arrives => exact arrives
  | next _ _ _ _ _ _ arrives => exact arrives

end Simulation

section
variable {σ : Type} [SnapshotSource σ] (moment : Moment σ) (entry : EventKey × Event)
  (sent : entry ∈ moment.sends) (packet : Packet) (interface : InterfaceId)
  (arrives : entry.2 = .arrival packet interface)
include sent arrives

theorem Moment.exists_copy_of_sends :
    ∃ effects receiver, moment.before.effects moment.key.node moment.event = .ok effects ∧
      .copy receiver interface packet ∈ effects := by
  have booked := Booking.ofEntry_mem_of_entries _ _ entry sent
  obtain ⟨effects, receiver, happens, copied, _⟩ :=
    moment.before.exists_copy_of_booking moment.key.node moment.event _ booked packet interface arrives
  exact ⟨effects, receiver, happens, copied⟩

theorem Moment.hopLimit_of_burst (burst : moment.event.isBurst = true) :
    packet.hopLimit = moment.before.config.hopLimit := by
  obtain ⟨effects, receiver, happens, copied⟩ :=
    moment.exists_copy_of_sends entry sent packet interface arrives
  cases event : moment.event with
  | timer timer => simp [event, Event.isBurst] at burst
  | arrival packet interface => simp [event, Event.isBurst] at burst
  | burst id =>
    rw [event] at happens
    unfold Simulation.effects at happens
    dsimp only at happens
    split at happens
    · cases happens
    · exact RefreshDriver.hopLimit_of_emit _ _ _ _ _ happens receiver interface packet copied

theorem Moment.hopLimit_of_arrival (arrived : Packet) (entered : InterfaceId)
    (handled : moment.event = .arrival arrived entered) :
    1 < arrived.hopLimit ∧ packet.hopLimit = arrived.hopLimit - 1 := by
  obtain ⟨effects, receiver, happens, copied⟩ :=
    moment.exists_copy_of_sends entry sent packet interface arrives
  rw [handled] at happens
  cases place : moment.key.node with
  | none =>
    rw [place] at happens
    cases happens
    cases copied
  | some node =>
    rw [place] at happens
    obtain ⟨header, forwarded⟩ := moment.before.driver.exists_forwarded?_of_receive node receiver
      arrived packet interface effects happens copied
    obtain ⟨left, same⟩ := (arrived.forwarded?_eq_some packet header).1 forwarded
    rw [same]
    exact ⟨left, rfl⟩

theorem Moment.isBurst_or_isArrival :
    moment.event.isBurst = true ∨ ∃ arrived entered, moment.event = .arrival arrived entered := by
  obtain ⟨effects, receiver, happens, copied⟩ :=
    moment.exists_copy_of_sends entry sent packet interface arrives
  cases event : moment.event with
  | timer timer =>
    rw [event] at happens
    cases happens
    cases copied
  | burst id => exact .inl rfl
  | arrival arrived entered => exact .inr ⟨arrived, entered, rfl⟩

end

/-! ## What is dropped -/

section
variable {σ : Type}

def Moment.isSpent (moment : Moment σ) : Bool :=
  match moment.event with
  | .arrival packet _ => packet.hopLimit ≤ 1
  | _ => false

def Moment.outputs (moment : Moment σ) : Nat :=
  match moment.event, moment.key.node, moment.result with
  | .arrival packet _, some node, .ok () => moment.before.driver.outputs node packet
  | _, _, _ => 0

def Moment.drops (moment : Moment σ) : Nat :=
  (moment.before.happenings moment.key.node moment.event).countP (· = .expired)

theorem Moment.drops_eq [SnapshotSource σ] (moment : Moment σ) (proper : moment.Proper) :
    moment.drops = if moment.isSpent then moment.outputs else 0 := by
  have result := moment.before.result_handle moment.key.node moment.event
  rw [proper.handled] at result
  dsimp only at result
  unfold drops isSpent outputs Simulation.happenings
  cases event : moment.event with
  | timer timer => rfl
  | burst id =>
    unfold Simulation.effects
    dsimp only
    rw [if_neg Bool.false_ne_true]
    apply List.countP_eq_zero.2
    intro effect happens
    split at happens
    · rename_i effects emitted
      split at emitted
      · cases emitted
      · simpa using moment.before.driver.ne_expired_of_emit _ _ _ effects emitted effect happens
    · cases happens
  | arrival packet interface =>
    rw [event] at result
    have ended := result nofun
    cases place : moment.key.node with
    | none => simp [Simulation.effects]
    | some node =>
      rw [place] at ended
      unfold Simulation.effects at ended ⊢
      dsimp only at ended ⊢
      cases received : moment.before.driver.receive node packet with
      | error error =>
        rw [received] at ended
        rw [ended]
        simp [Except.map]
      | ok effects =>
        rw [received] at ended
        rw [ended]
        simpa [Except.map] using moment.before.driver.countP_receive node packet effects received

end

namespace Simulation
variable {σ : Type}

theorem sum_drops [SnapshotSource σ] (log : List (Moment σ))
    (proper : ∀ moment ∈ log, moment.Proper) :
    (log.map Moment.drops).sum = ((log.filter Moment.isSpent).map Moment.outputs).sum := by
  induction log with
  | nil => rfl
  | cons moment rest ih =>
    obtain ⟨own, proper⟩ := List.forall_mem_cons.1 proper
    rw [List.map_cons, List.sum_cons, ih proper, moment.drops_eq own]
    cases spent : moment.isSpent with
    | true => rw [if_pos rfl, List.filter_cons_of_pos spent, List.map_cons, List.sum_cons]
    | false =>
      rw [if_neg Bool.false_ne_true, List.filter_cons_of_neg (by simp [spent]), Nat.zero_add]

section
variable [SnapshotSource σ] (first simulation : Simulation σ) (log : List (Moment σ))
  (course : first.Course log simulation)
include course

theorem config_of_course :
    simulation.config = first.config ∧ ∀ moment ∈ log, moment.before.config = first.config := by
  induction course with
  | start => exact ⟨rfl, by simp⟩
  | step log simulation later horizon key event queue result _ _ _ handled ih =>
    have config := (simulation.pop event queue).config_handle key.node event
    rw [handled] at config
    refine ⟨config.trans ih.1, List.forall_mem_append.2 ⟨ih.2, ?_⟩⟩
    exact List.forall_mem_singleton.2 ih.1
  | rest log simulation horizon _ _ ih => exact ih

theorem droppedExpired_of_course : simulation.stats.droppedExpired =
    first.stats.droppedExpired + (log.map Moment.drops).sum := by
  induction course with
  | start => rfl
  | step log simulation later horizon key event queue result _ _ _ handled ih =>
    have stats := (simulation.pop event queue).stats_handle key.node event
    rw [handled] at stats
    have dropped : later.stats.droppedExpired = simulation.stats.droppedExpired +
        ((simulation.pop event queue).happenings key.node event).countP (· = .expired) :=
      congrArg Stats.droppedExpired stats
    rw [dropped, ih, List.map_append, List.sum_append, Nat.add_assoc, List.map_singleton,
      List.sum_singleton]
    rfl
  | rest log simulation horizon _ _ ih => exact ih

/-- Every copy that has arrived or is in flight was sent by a burst, or by the arrival of another. -/
theorem exists_crosses_of_course (ordered : first.queue.Ordered)
    (still : ∀ entry ∈ first.queue.waiting, ∀ packet interface, entry.2 ≠ .arrival packet interface) :
    ∀ entry ∈ log.map Moment.entry ++ simulation.queue.waiting, ∀ packet interface,
      entry.2 = .arrival packet interface → ∃ links, Crosses log links entry := by
  induction course with
  | start =>
    intro entry waits packet interface arrives
    exact absurd arrives (still entry waits packet interface)
  | step log simulation later horizon key event queue result earlier _ popped handled ih =>
    obtain ⟨inOrder, _⟩ := ordered_of_course first simulation log ordered earlier
    have waiting := simulation.queue.waiting_of_popUntil queue horizon key event popped
    have out := simulation.queue.popped_of_popUntil queue horizon key event popped
    obtain ⟨rest, _, _⟩ := simulation.queue.ordered_of_popped queue inOrder horizon key event out
    have gains := (simulation.pop event queue).gains_handle rest key.node event
    rw [handled] at gains
    let moment : Moment σ := ⟨key, event, simulation.pop event queue, result, later⟩
    have member : moment ∈ log ++ [moment] := List.mem_append_right _ List.mem_cons_self
    have known (entry : EventKey × Event)
        (listed : entry ∈ log.map Moment.entry ++ simulation.queue.waiting) (packet : Packet)
        (interface : InterfaceId) (arrives : entry.2 = .arrival packet interface) :
        ∃ links, Crosses (log ++ [moment]) links entry := by
      obtain ⟨links, crosses⟩ := ih entry listed packet interface arrives
      exact ⟨links, crosses.mono log [moment] links entry⟩
    have own : moment.entry ∈ log.map Moment.entry ++ simulation.queue.waiting := by
      rw [waiting]
      exact List.mem_append_right _ List.mem_cons_self
    intro entry listed packet interface arrives
    rw [List.map_append, List.append_assoc] at listed
    rcases List.mem_append.1 listed with before | now
    · exact known entry (List.mem_append_left _ before) packet interface arrives
    cases List.mem_cons.1 now with
    | inl here =>
      rw [here] at arrives ⊢
      exact known moment.entry own packet interface arrives
    | inr waits =>
      cases List.mem_append.1 (gains.waiting.mem_iff.1 waits) with
      | inr left =>
        refine known entry (List.mem_append_right _ ?_) packet interface arrives
        rw [waiting]
        exact List.mem_cons_of_mem _ left
      | inl sent =>
        have arrival : entry.2.isArrival = true := by
          rw [arrives]
          rfl
        cases moment.isBurst_or_isArrival entry sent packet interface arrives with
        | inl burst => exact ⟨1, .first moment member burst entry sent arrival⟩
        | inr relayed =>
          obtain ⟨arrived, entered, same⟩ := relayed
          obtain ⟨links, crossed⟩ := known moment.entry own arrived entered same
          exact ⟨links + 1, .next moment member links crossed entry sent arrival⟩
  | rest log simulation horizon _ _ ih => exact ih

end

theorem hopLimit_of_crosses [SnapshotSource σ] (log : List (Moment σ)) (limit : Nat)
    (limited : 1 ≤ limit) (configured : ∀ moment ∈ log, moment.before.config.hopLimit = limit)
    (links : Nat) (entry : EventKey × Event) (crosses : Crosses log links entry) (packet : Packet)
    (interface : InterfaceId) (arrives : entry.2 = .arrival packet interface) :
    1 ≤ links ∧ links ≤ limit ∧ packet.hopLimit = limit - links + 1 := by
  induction crosses generalizing packet interface with
  | first moment member burst entry sent _ =>
    have whole := moment.hopLimit_of_burst entry sent packet interface arrives burst
    rw [configured moment member] at whole
    omega
  | next moment member links crossed entry sent _ ih =>
    obtain ⟨arrived, entered, same⟩ :=
      Event.exists_of_isArrival moment.event (crossed.isArrival log links moment.entry)
    have before := ih arrived entered same
    have less := moment.hopLimit_of_arrival entry sent packet interface arrives arrived entered same
    omega

section
variable [SnapshotSource σ] (config : SimulationConfig) (source : σ) (roles : NodeRoles)
  (requests : List Request) (positions : BitPositions)

/-- In every run, with either forwarding, through loops and refreshes: every copy that has arrived or is
in flight is on some link from its source, it has crossed no more links than its hop limit allows, and
what it has left of the limit tells how many. The copies dropped for the limit are those that were to
leave a node where a copy had arrived on the last link that the limit allows. -/
theorem hop_limit_counts_links (limited : 1 ≤ config.hopLimit) (log : List (Moment σ))
    (simulation : Simulation σ)
    (course : (start config source roles requests positions).Course log simulation) :
    (∀ entry ∈ log.map Moment.entry ++ simulation.queue.waiting, entry.2.isArrival = true →
      ∃ links, Crosses log links entry) ∧
    (∀ links entry, Crosses log links entry → 1 ≤ links ∧ links ≤ config.hopLimit ∧
      ∃ packet interface, entry.2 = .arrival packet interface ∧
        packet.hopLimit = config.hopLimit - links + 1 ∧ 1 ≤ packet.hopLimit) ∧
    (∀ moment ∈ log, moment.isSpent = true ↔ Crosses log config.hopLimit moment.entry) ∧
    simulation.stats.droppedExpired = ((log.filter Moment.isSpent).map Moment.outputs).sum := by
  have ordered := (gains_start config source roles requests positions).ordered
  have still := no_arrival_of_start config source roles requests positions
  have proper := (ordered_of_course _ simulation log ordered course).2
  have configured : ∀ moment ∈ log, moment.before.config.hopLimit = config.hopLimit := by
    intro moment member
    rw [(config_of_course _ simulation log course).2 moment member]
    rfl
  have crossing := exists_crosses_of_course _ simulation log course ordered still
  have left := hopLimit_of_crosses log config.hopLimit limited configured
  refine ⟨fun entry listed arrival => ?_, fun links entry crosses => ?_, fun moment member => ?_, ?_⟩
  · obtain ⟨packet, interface, arrives⟩ := Event.exists_of_isArrival entry.2 arrival
    exact crossing entry listed packet interface arrives
  · obtain ⟨packet, interface, arrives⟩ :=
      Event.exists_of_isArrival entry.2 (crosses.isArrival log links entry)
    have counts := left links entry crosses packet interface arrives
    exact ⟨counts.1, counts.2.1, packet, interface, arrives, counts.2.2, by omega⟩
  · constructor
    · intro spent
      cases event : moment.event with
      | timer timer => simp [Moment.isSpent, event] at spent
      | burst id => simp [Moment.isSpent, event] at spent
      | arrival packet interface =>
        have low : packet.hopLimit ≤ 1 := by simpa [Moment.isSpent, event] using spent
        obtain ⟨links, crosses⟩ := crossing moment.entry
          (List.mem_append_left _ (List.mem_map_of_mem member)) packet interface event
        have counts := left links moment.entry crosses packet interface event
        have last : links = config.hopLimit := by omega
        rwa [last] at crosses
    · intro crosses
      obtain ⟨packet, interface, arrives⟩ :=
        Event.exists_of_isArrival moment.event (crosses.isArrival log _ moment.entry)
      have counts := left config.hopLimit moment.entry crosses packet interface arrives
      simp only [Moment.isSpent, arrives, decide_eq_true_eq]
      omega
  · have dropped := droppedExpired_of_course _ simulation log course
    have none : (start config source roles requests positions).stats.droppedExpired = 0 := rfl
    rw [dropped, none, Nat.zero_add, sum_drops log proper]

end

/-- The packet that goes round is dropped at the end of the sixth link, where it was to leave once. -/
theorem hop_limit_counts_links_whirl :
    ∃ log simulation, whirlRun.Course log simulation ∧ 1 ≤ whirlRun.config.hopLimit ∧
      (∃ moment ∈ log, Crosses log 6 moment.entry ∧ moment.outputs = 1) ∧
      simulation.stats.droppedExpired = 1 := by
  have course := course_logUntil whirlRun whirlRun [] .start 9 8 (by decide)
  have limited : 1 ≤ whirlRun.config.hopLimit := by decide
  have last : (whirlRun.logUntil 9 8).1.any (fun moment =>
      moment.isSpent && moment.outputs = 1) = true := by decide +kernel
  have sum : (((whirlRun.logUntil 9 8).1.filter Moment.isSpent).map Moment.outputs).sum = 1 := by
    decide +kernel
  obtain ⟨_, _, spent, dropped⟩ := hop_limit_counts_links _ _ _ _ _ limited _ _ course
  obtain ⟨moment, member, ends⟩ := List.any_eq_true.1 last
  rw [Bool.and_eq_true, decide_eq_true_eq] at ends
  exact ⟨_, _, course, limited, ⟨moment, member, (spent moment member).1 ends.1, ends.2⟩,
    dropped.trans sum⟩

end Simulation
end Multicast
