import Multicast.Proofs.Bier.Header
import Multicast.Proofs.Simulation.Copying
import Multicast.Proofs.Simulation.Course

/-!
Passages. In a run on one network every packet of a request crosses hops of the request's tree: it
arrives at the receiver of a hop, a link latency after an event at the sender has sent it on. Main
statement: this holds of every arrival that has been handled or waits.
-/

namespace Multicast
open Std

namespace RefreshDriver
variable {σ : Type}

theorem receive_eq_ok (driver : RefreshDriver σ) (routed : driver.config.forwarding = .routeTable)
    (node : NodeId) (packet : Packet) (effects : List Effect)
    (received : driver.receive node packet = .ok effects) :
    ∃ request ∈ driver.requests, request.id = packet.request ∧
      driver.receiveRouted node packet (request.destinations.contains node) = .ok effects := by
  unfold receive at received
  split at received
  · cases received
  · rename_i request found
    rw [routed] at received
    obtain ⟨listed, same⟩ := driver.request?_eq_some _ request found
    exact ⟨request, listed, same, received⟩

end RefreshDriver

namespace Simulation
variable {σ : Type}

theorem ne_arrival_of_sequels [SnapshotSource σ] (simulation : Simulation σ) (event : Event)
    (booking : Booking) (sequel : booking ∈ simulation.sequels event) (packet : Packet)
    (interface : InterfaceId) : booking.event ≠ .arrival packet interface := by
  intro arrives
  rcases simulation.event_of_sequels event booking sequel with ⟨_, _, _, timer⟩ | ⟨_, _, burst⟩
  · cases timer.symm.trans arrives
  · cases burst.symm.trans arrives

theorem exists_copy_of_booking [SnapshotSource σ] (simulation : Simulation σ) (node : Option NodeId)
    (event : Event) (booking : Booking) (booked : booking ∈ simulation.bookings node event)
    (packet : Packet) (interface : InterfaceId) (arrives : booking.event = .arrival packet interface) :
    ∃ effects receiver, simulation.effects node event = .ok effects ∧
      .copy receiver interface packet ∈ effects ∧
      booking = ⟨some receiver, simulation.now + simulation.config.linkLatency,
        .arrival packet interface⟩ := by
  rcases simulation.copy_or_sequel_of_mem_bookings node event booking booked with
    ⟨effects, receiver, _, _, happens, sent, rfl⟩ | sequel
  · cases arrives
    exact ⟨effects, receiver, happens, sent, rfl⟩
  · exact absurd arrives (simulation.ne_arrival_of_sequels event booking sequel packet interface)

def occurrences (log : List (Moment σ)) (simulation : Simulation σ) : List Booking :=
  log.map Moment.booking ++ simulation.queue.booked

section
variable (config : SimulationConfig) (source : σ) (roles : NodeRoles) (requests : List Request)
  (positions : BitPositions)

theorem ne_arrival_of_start (booking : Booking)
    (listed : booking ∈ occurrences [] (start config source roles requests positions))
    (packet : Packet) (interface : InterfaceId) : booking.event ≠ .arrival packet interface := by
  intro arrives
  have first := (booked_start config source roles requests positions).mem_iff.1 listed
  rcases List.mem_cons.1 first with rfl | first
  · cases arrives
  · obtain ⟨_, _, rfl⟩ := List.mem_map.1 first
    cases arrives

open scoped List in
theorem occurrences_step [SnapshotSource σ] (log : List (Moment σ)) (simulation later : Simulation σ)
    (earlier : (start config source roles requests positions).Course log simulation) (horizon : Nat)
    (key : EventKey) (event : Event) (queue : EventQueue) (result : Except SimulationError Unit)
    (popped : simulation.queue.popUntil horizon = some (key, event, queue))
    (handled : (simulation.pop event queue).handle key.node event = (result, later)) :
    occurrences (log ++ [⟨key, event, simulation.pop event queue, result, later⟩]) later ~
        (simulation.pop event queue).bookings key.node event ++ occurrences log simulation ∧
      .ofEntry (key, event) ∈ occurrences log simulation := by
  obtain ⟨ordered, _⟩ := ordered_of_course _ simulation log
    (gains_start config source roles requests positions).ordered earlier
  have out := simulation.queue.popped_of_popUntil queue horizon key event popped
  refine ⟨?_, List.mem_append_right _ (out.booked.mem_iff.2 List.mem_cons_self)⟩
  obtain ⟨inOrder, _, _⟩ := simulation.queue.ordered_of_popped queue ordered horizon key event out
  have gains := (simulation.pop event queue).gains_handle inOrder key.node event
  rw [handled] at gains
  have listed : occurrences (log ++ [⟨key, event, simulation.pop event queue, result, later⟩]) later =
      log.map Moment.booking ++ (.ofEntry (key, event) :: later.queue.booked) := by
    simp [occurrences, Moment.booking]
  rw [listed]
  calc
    log.map Moment.booking ++ (.ofEntry (key, event) :: later.queue.booked)
      ~ log.map Moment.booking ++ (.ofEntry (key, event) ::
          ((simulation.pop event queue).bookings key.node event ++ queue.booked)) :=
        (gains.booked.cons _).append_left _
    _ ~ log.map Moment.booking ++ ((simulation.pop event queue).bookings key.node event ++
          (.ofEntry (key, event) :: queue.booked)) := List.perm_middle.symm.append_left _
    _ ~ (simulation.pop event queue).bookings key.node event ++
          (log.map Moment.booking ++ (.ofEntry (key, event) :: queue.booked)) :=
        List.perm_append_comm_assoc _ _ _
    _ ~ (simulation.pop event queue).bookings key.node event ++ occurrences log simulation :=
        (out.booked.symm.append_left _).append_left _

end

end Simulation

structure Stands {σ : Type} (config : SimulationConfig) (roles : NodeRoles) (requests : List Request)
    (positions : BitPositions) (network : Snapshot) (simulation : Simulation σ) : Prop where
  configured : simulation.config = config
  setting : simulation.driver.setting = (config.refresh, roles, requests, positions)
  keeps : simulation.driver.Keeps network

section
variable {σ : Type} {config : SimulationConfig} {roles : NodeRoles} {requests : List Request}
  {positions : BitPositions} {network : Snapshot} {simulation : Simulation σ}

theorem Stands.routed (stands : Stands config roles requests positions network simulation)
    (routed : config.refresh.forwarding = .routeTable) :
    simulation.driver.config.forwarding = .routeTable := by
  have same : simulation.driver.config = config.refresh := congrArg Prod.fst stands.setting
  rw [same]
  exact routed

theorem Stands.pop (stands : Stands config roles requests positions network simulation)
    (event : Event) (queue : EventQueue) :
    Stands config roles requests positions network (simulation.pop event queue) :=
  ⟨stands.configured, stands.setting, stands.keeps⟩

theorem Stands.requests_eq (stands : Stands config roles requests positions network simulation) :
    simulation.driver.requests = requests :=
  congrArg (fun setting => setting.2.2.1) stands.setting

theorem Stands.roles_eq (stands : Stands config roles requests positions network simulation) :
    simulation.driver.roles = roles :=
  congrArg (fun setting => setting.2.1) stands.setting

theorem Stands.eq_of_request? (stands : Stands config roles requests positions network simulation)
    (distinct : requests.Pairwise fun one other => one.id % 2 ^ 32 ≠ other.id % 2 ^ 32)
    (request : Request) (member : request ∈ requests) (other : Request)
    (found : simulation.driver.request? request.id = some other) : other = request := by
  obtain ⟨listed, same⟩ := simulation.driver.request?_eq_some _ other found
  rw [stands.requests_eq] at listed
  exact Request.eq_of_id requests (distinct.imp fun different same => different (by rw [same])) other
    request listed member same

theorem Stands.separate (stands : Stands config roles requests positions network simulation)
    (distinct : requests.Pairwise fun one other => one.id % 2 ^ 32 ≠ other.id % 2 ^ 32) :
    simulation.driver.requests.Pairwise Request.Separate := by
  rw [stands.requests_eq]
  exact distinct.imp fun different => Request.separate_of_ids _ _ different

end

/-- Every snapshot that an event of the log leaves in place shows the network. -/
def Shown {σ : Type} (network : Snapshot) (log : List (Moment σ)) : Prop :=
  ∀ moment ∈ log, ∀ snapshot, moment.after.driver.snapshot = some snapshot → snapshot.Shows network

/-- Whatever the source yields, again and again, shows the network. -/
def SnapshotSource.Constant {σ : Type} [SnapshotSource σ] (network : Snapshot) (source : σ) : Prop :=
  ∀ epochs epoch snapshot, (load (afterAll source epochs) epoch).1 = .ok snapshot →
    snapshot.Shows network

def SnapshotPlan.always (network : Snapshot) : SnapshotPlan := ⟨fun epoch => .ok { network with epoch }⟩

theorem SnapshotPlan.constant_always (network : Snapshot) :
    SnapshotSource.Constant network (always network) := by
  intro epochs epoch snapshot load
  have unchanged (epochs : List Nat) :
      SnapshotSource.afterAll (always network) epochs = always network := by
    induction epochs with
    | nil => rfl
    | cons first rest ih => exact ih
  rw [unchanged] at load
  cases load
  exact ⟨epoch, rfl⟩

namespace RefreshDriver

def Reads {σ : Type} [SnapshotSource σ] (network : Snapshot) (source : σ)
    (driver : RefreshDriver σ) : Prop :=
  (∃ epochs, driver.source = SnapshotSource.afterAll source epochs) ∧
    ∀ snapshot, driver.snapshot = some snapshot → snapshot.Shows network

theorem reads_refresh {σ : Type} [SnapshotSource σ] (network : Snapshot) (source : σ)
    (constant : SnapshotSource.Constant network source) (driver : RefreshDriver σ)
    (reads : driver.Reads network source) (epoch : Nat) :
    (driver.refresh epoch).2.Reads network source := by
  obtain ⟨⟨epochs, same⟩, shows⟩ := reads
  have read (yielded : Except SnapshotError Snapshot) (rest : σ)
      (load : SnapshotSource.load driver.source epoch = (yielded, rest)) :
      rest = SnapshotSource.afterAll source (epochs ++ [epoch]) := by
    rw [same] at load
    unfold SnapshotSource.afterAll at load ⊢
    rw [List.foldl_append, List.foldl_cons, load]
    rfl
  have ways := driver.ends_refresh epoch
  generalize (driver.refresh epoch).1 = result at ways
  generalize (driver.refresh epoch).2 = later at ways ⊢
  cases ways with
  | early => exact ⟨⟨epochs, same⟩, shows⟩
  | unloaded _ rest _ load => exact ⟨⟨_, read _ rest load⟩, shows⟩
  | unbuilt _ _ rest _ load => exact ⟨⟨_, read _ rest load⟩, shows⟩
  | built snapshot rest _ _ load _ _ _ _ install =>
    cases install
    refine ⟨⟨_, read _ rest load⟩, fun held found => ?_⟩
    cases found
    rw [same] at load
    exact constant epochs epoch snapshot (congrArg Prod.fst load)

end RefreshDriver

theorem Simulation.shown_of_constant {σ : Type} [SnapshotSource σ] (network : Snapshot)
    (config : SimulationConfig) (source : σ) (roles : NodeRoles) (requests : List Request)
    (positions : BitPositions) (constant : SnapshotSource.Constant network source)
    (log : List (Moment σ)) (simulation : Simulation σ)
    (course : (start config source roles requests positions).Course log simulation) :
    Shown network log := by
  suffices both : simulation.driver.Reads network source ∧ Shown network log from both.2
  induction course with
  | start => exact ⟨⟨⟨[], rfl⟩, by simp [start, RefreshDriver.start]⟩, by simp [Shown]⟩
  | step log simulation later horizon key event queue result _ _ _ handled ih =>
    have driver := (simulation.pop event queue).driver_handle key.node event
    rw [handled] at driver
    have reads : later.driver.Reads network source := by
      dsimp only at driver
      rw [driver]
      split
      · exact RefreshDriver.reads_refresh network source constant _ ih.1 _
      · exact ih.1
      · exact ih.1
    exact ⟨reads, List.forall_mem_append.2 ⟨ih.2, List.forall_mem_singleton.2 reads.2⟩⟩
  | rest log simulation horizon _ _ ih => exact ih

namespace Simulation
variable {σ : Type}

theorem request_of_effects (simulation : Simulation σ) (node : Option NodeId) (event : Event)
    (effects : List Effect) (happens : simulation.effects node event = .ok effects)
    (receiver : NodeId) (interface : InterfaceId) (copy : Packet)
    (sent : .copy receiver interface copy ∈ effects) :
    event = .burst copy.request ∨
      ∃ packet entered, event = .arrival packet entered ∧ packet.request = copy.request := by
  cases event with
  | timer timer =>
    cases happens
    simp at sent
  | burst id =>
    simp only [Simulation.effects] at happens
    split at happens
    · cases happens
    · rename_i request found
      have addressed := simulation.driver.addressed_of_emit request _ _ _ happens _ _ _ sent
      rw [addressed.numbered, (simulation.driver.request?_eq_some id request found).2]
      exact .inl rfl
  | arrival packet entered =>
    cases node with
    | none =>
      cases happens
      simp at sent
    | some node =>
      obtain ⟨header, forwarded⟩ := simulation.driver.exists_forwarded?_of_receive _ _ _ _ _ _
        happens sent
      obtain ⟨_, rfl⟩ := (packet.forwarded?_eq_some copy header).1 forwarded
      exact .inr ⟨packet, entered, rfl, rfl⟩

def Sends (simulation : Simulation σ) (node : Option NodeId) (event : Event) (request : Request)
    (tree : Tree) (sequence : Nat) (sender : NodeId) : Prop :=
  (event = .burst request.id ∧ sender = request.source ∧ simulation.sent request.id = sequence) ∨
    (node = some sender ∧ ∃ hopLimit interface, event = .arrival
      (RefreshDriver.routedPacket request hopLimit sequence tree.origin.interface) interface)

def Brings (simulation : Simulation σ) (event : Event) (request : Request) (tree : Tree) : Prop :=
  ∀ packet interface, event = .arrival packet interface → packet.request = request.id →
    ∃ hopLimit, ∃ sequence < simulation.sent request.id,
      packet = RefreshDriver.routedPacket request hopLimit sequence tree.origin.interface

/-- The packet of a request with the given number crosses a hop of the tree: an event of the log has
sent it at the sender, and it arrives at the receiver a latency later. -/
def Passes (log : List (Moment σ)) (latency : Nat) (request : Request) (tree : Tree) (sequence : Nat)
    (booking : Booking) : Prop :=
  ∃ hop ∈ tree.hops, ∃ hopLimit, ∃ moment ∈ log,
    moment.before.Sends moment.key.node moment.event request tree sequence hop.sender ∧
      booking = ⟨some hop.receiver, moment.key.time + latency, .arrival
        (RefreshDriver.routedPacket request hopLimit sequence tree.origin.interface)
        hop.inInterface⟩

theorem Passes.append (log : List (Moment σ)) (latency : Nat) (request : Request) (tree : Tree)
    (sequence : Nat) (booking : Booking) (passes : Passes log latency request tree sequence booking)
    (moment : Moment σ) : Passes (log ++ [moment]) latency request tree sequence booking := by
  obtain ⟨hop, inside, hopLimit, sender, listed, facts⟩ := passes
  exact ⟨hop, inside, hopLimit, sender, List.mem_append_left _ listed, facts⟩

theorem Passes.brings (simulation : Simulation σ) (log : List (Moment σ)) (latency : Nat)
    (request : Request) (tree : Tree) (booking : Booking)
    (passes : ∀ packet interface, booking.event = .arrival packet interface →
      packet.request = request.id →
        ∃ sequence < simulation.sent request.id, Passes log latency request tree sequence booking) :
    simulation.Brings booking.event request tree := by
  intro packet interface arrives own
  obtain ⟨sequence, numbered, _, _, hopLimit, _, _, _, booked⟩ := passes packet interface arrives own
  cases arrives.symm.trans (congrArg Booking.event booked)
  exact ⟨hopLimit, sequence, numbered, rfl⟩

theorem not_burst_of_unknown (simulation : Simulation σ) (other : RequestId)
    (found : simulation.driver.request? other = none) (id : RequestId) :
    ¬(Event.burst other = .burst id ∧ (simulation.driver.request? id).isSome) := by
  rintro ⟨same, some⟩
  cases same
  simp [found] at some

theorem burst_iff_of_request? (simulation : Simulation σ) (other : RequestId) (request : Request)
    (found : simulation.driver.request? other = some request) (id : RequestId) :
    (Event.burst other = .burst id ∧ (simulation.driver.request? id).isSome) ↔ other = id := by
  constructor
  · rintro ⟨same, _⟩
    exact Event.burst.inj same
  · rintro rfl
    simp [found]

theorem sent_handle [SnapshotSource σ] (simulation : Simulation σ) (node : Option NodeId)
    (event : Event) (id : RequestId) :
    (simulation.handle node event).2.sent id = simulation.sent id +
      if event = .burst id ∧ (simulation.driver.request? id).isSome then 1 else 0 := by
  have ways := simulation.ends_handle node event
  generalize (simulation.handle node event).1 = result at ways
  generalize (simulation.handle node event).2 = later at ways ⊢
  cases ways with
  | unrefreshed => rfl
  | refreshed => rfl
  | unbound => rfl
  | unknown other found =>
    rw [if_neg (simulation.not_burst_of_unknown other found id)]
    rfl
  | unsent other request error found =>
    rw [sent_countSent]
    simp only [simulation.burst_iff_of_request? other request found id]
  | sent other request effects found =>
    rw [sent_of_sequences _ _ (sequences_scheduleNext _ request),
      sent_of_sequences _ _ (applied_applyEffects _ other effects).sequences, sent_countSent]
    simp only [simulation.burst_iff_of_request? other request found id]
  | stray => rfl
  | unreceived => rfl
  | received _ packet _ effects =>
    exact sent_of_sequences _ _ (simulation.applied_applyEffects packet.request effects).sequences id

section
variable (config : SimulationConfig) (roles : NodeRoles) (requests : List Request)
  (positions : BitPositions) (network : Snapshot)
  (routed : config.refresh.forwarding = .routeTable)
  (distinct : requests.Pairwise fun one other => one.id % 2 ^ 32 ≠ other.id % 2 ^ 32)
include routed distinct

section
variable (made : network.interfaces.Made) (simulation : Simulation σ)
  (stands : Stands config roles requests positions network simulation) (request : Request)
  (member : request ∈ requests) (tree : Tree) (built : Tree.build request network = .ok tree)
  (effects : List Effect)
include made stands member built

theorem spreads_of_burst (node : Option NodeId)
    (happens : simulation.effects node (.burst request.id) = .ok effects) :
    tree.Spreads request.source (RefreshDriver.routedPacket request simulation.config.hopLimit
      (simulation.sent request.id) tree.origin.interface) effects := by
  simp only [Simulation.effects] at happens
  split at happens
  · cases happens
  · rename_i other found
    obtain rfl := stands.eq_of_request? distinct request member other found
    unfold RefreshDriver.emit at happens
    rw [stands.routed routed] at happens
    exact simulation.driver.spreads_emitRouted network stands.keeps made (stands.separate distinct)
      other (stands.requests_eq ▸ member) tree built _ _ effects happens

theorem spreads_of_arrival (node : NodeId) (hopLimit sequence : Nat) (interface : InterfaceId)
    (happens : simulation.effects (some node) (.arrival (RefreshDriver.routedPacket request hopLimit
      sequence tree.origin.interface) interface) = .ok effects) :
    tree.Spreads node (RefreshDriver.routedPacket request (hopLimit - 1) sequence
        tree.origin.interface) effects ∧
      effects.countP (· = .deliver) ≤ if request.destinations.contains node then 1 else 0 := by
  obtain ⟨other, listed, same, received⟩ :=
    simulation.driver.receive_eq_ok (stands.routed routed) node _ effects happens
  obtain rfl := Request.eq_of_id requests (distinct.imp fun different same => different (by rw [same]))
    other request (stands.requests_eq ▸ listed) member same
  exact simulation.driver.spreads_receiveRouted network stands.keeps made (stands.separate distinct)
    other listed tree built node hopLimit sequence _ effects received

/-- Effects that send a packet of the request spread it over the tree. -/
theorem spreads_of_effects [SnapshotSource σ] (node : Option NodeId) (event : Event)
    (happens : simulation.effects node event = .ok effects)
    (brings : simulation.Brings event request tree)
    (receiver : NodeId) (interface : InterfaceId) (copy : Packet)
    (sent : .copy receiver interface copy ∈ effects) (about : copy.request = request.id) :
    ∃ sender hopLimit, ∃ sequence < (simulation.handle node event).2.sent request.id,
      simulation.Sends node event request tree sequence sender ∧
        tree.Spreads sender
          (RefreshDriver.routedPacket request hopLimit sequence tree.origin.interface) effects := by
  have counted := simulation.sent_handle node event request.id
  rcases simulation.request_of_effects node event effects happens receiver
    interface copy sent with rfl | ⟨packet, entered, rfl, same⟩
  · rw [about] at happens counted ⊢
    refine ⟨_, _, _, ?_, .inl ⟨rfl, rfl, rfl⟩, spreads_of_burst config roles requests positions network
      routed distinct made simulation stands request member tree built effects node happens⟩
    have known : (simulation.driver.request? request.id).isSome = true := by
      simp only [Simulation.effects] at happens
      split at happens
      · cases happens
      · rename_i other found
        rw [found]
        rfl
    rw [counted, if_pos ⟨rfl, known⟩]
    exact Nat.lt_succ_self _
  · obtain ⟨hopLimit, sequence, numbered, rfl⟩ := brings packet entered rfl (same.trans about)
    cases node with
    | none =>
      cases happens
      simp at sent
    | some node =>
      refine ⟨node, _, sequence, ?_, .inr ⟨rfl, hopLimit, entered, rfl⟩,
        (spreads_of_arrival config roles requests positions network routed distinct made simulation
          stands request member tree built effects node hopLimit sequence entered happens).1⟩
      rw [counted]
      exact Nat.lt_of_lt_of_le numbered (Nat.le_add_right _ _)

end

variable [SnapshotSource σ] (source : σ)

theorem stands_handle (simulation : Simulation σ)
    (stands : Stands config roles requests positions network simulation) (node : Option NodeId)
    (event : Event) (shows : ∀ snapshot,
      (simulation.handle node event).2.driver.snapshot = some snapshot → snapshot.Shows network) :
    Stands config roles requests positions network (simulation.handle node event).2 := by
  refine ⟨(simulation.config_handle node event).trans stands.configured,
    (simulation.setting_handle node event).trans stands.setting, ?_⟩
  rw [simulation.driver_handle node event] at shows ⊢
  split at shows
  · rename_i epoch
    exact simulation.driver.keeps_refresh network stands.keeps (stands.routed routed)
      (stands.separate distinct) epoch shows
  · rename_i binding
    exact simulation.driver.keeps_sheds network stands.keeps _
      (LinkBindings.sheds_unbind _ _ simulation.driver.bindings.sheds_refl binding)
  · exact stands.keeps

theorem stands_of_course (log : List (Moment σ)) (simulation : Simulation σ)
    (course : (start config source roles requests positions).Course log simulation)
    (shown : Shown network log) :
    Stands config roles requests positions network simulation ∧
      ∀ moment ∈ log, Stands config roles requests positions network moment.before := by
  induction course with
  | start =>
    exact ⟨⟨rfl, rfl, RefreshDriver.keeps_start _ _ _ _ _ network⟩, by simp⟩
  | step log simulation later horizon key event queue result _ _ popped handled ih =>
    obtain ⟨before, here⟩ := List.forall_mem_append.1 shown
    obtain ⟨stands, each⟩ := ih before
    have found := stands.pop event queue
    have shows := here _ List.mem_cons_self
    have after := stands_handle config roles requests positions network routed distinct _ found
      key.node event (by rw [handled]; exact shows)
    rw [handled] at after
    exact ⟨after, List.forall_mem_append.2 ⟨each, List.forall_mem_singleton.2 found⟩⟩
  | rest log simulation horizon _ _ ih =>
    obtain ⟨stands, each⟩ := ih shown
    exact ⟨⟨stands.configured, stands.setting, stands.keeps⟩, each⟩

/-- In a run on one network every packet of a request that has a tree arrives over hops of the tree,
and only packets arrive that the source has sent. -/
theorem passes_of_course (made : network.interfaces.Made) (request : Request)
    (member : request ∈ requests) (tree : Tree) (built : Tree.build request network = .ok tree)
    (log : List (Moment σ)) (simulation : Simulation σ)
    (course : (start config source roles requests positions).Course log simulation)
    (shown : Shown network log) (booking : Booking) (listed : booking ∈ occurrences log simulation)
    (packet : Packet) (interface : InterfaceId) (arrives : booking.event = .arrival packet interface)
    (own : packet.request = request.id) :
    ∃ sequence < simulation.sent request.id,
      Passes log config.linkLatency request tree sequence booking := by
  induction course generalizing booking packet interface with
  | start =>
    exact absurd arrives (ne_arrival_of_start config source roles requests positions booking listed
      packet interface)
  | step log simulation later horizon key event queue result earlier _ popped handled ih =>
    have before := (List.forall_mem_append.1 shown).1
    obtain ⟨stands, _⟩ := stands_of_course config roles requests positions network routed distinct source
      log simulation earlier before
    obtain ⟨perm, handling⟩ := occurrences_step config source roles requests positions log simulation
      later earlier horizon key event queue result popped handled
    have sent := (simulation.pop event queue).sent_handle key.node event request.id
    rw [handled] at sent
    rcases List.mem_append.1 (perm.mem_iff.1 listed) with fresh | old
    · obtain ⟨effects, receiver, happens, copied, rfl⟩ :=
        (simulation.pop event queue).exists_copy_of_booking key.node event booking fresh packet
          interface arrives
      obtain ⟨sender, hopLimit, sequence, numbered, sends, spreads⟩ :=
        spreads_of_effects config roles requests positions network routed distinct made
          (simulation.pop event queue) (stands.pop event queue) request member tree built effects
          key.node event happens (Passes.brings simulation log _ request tree _ (ih before _ handling))
          receiver interface packet copied own
      obtain ⟨rfl, leaving, inside⟩ := spreads.crosses receiver interface packet copied
      rw [handled] at numbered
      refine ⟨sequence, numbered, _, inside, hopLimit, _, List.mem_append_right _ List.mem_cons_self,
        sends, ?_⟩
      rw [← stands.configured,
        ← (simulation.queue.popped_of_popUntil queue horizon key event popped).now]
      rfl
    · obtain ⟨sequence, numbered, passes⟩ := ih before booking old packet interface arrives own
      refine ⟨sequence, Nat.lt_of_lt_of_le numbered ?_, passes.append _ _ _ _ _ _ _⟩
      exact sent ▸ Nat.le_add_right _ _
  | rest log simulation horizon _ _ ih => exact ih shown booking listed packet interface arrives own

end

end Simulation
end Multicast
