import Multicast.Proofs.Simulation.Passage
import Multicast.Proofs.Simulation.Refreshes
import Multicast.Proofs.Simulation.Upholding

/-!
Static state. The one refresh of a static run stays in force to the end: the bindings that it makes are
never stale. Main statement: every packet of a run without errors meets a driver that upholds each
request that starts before the finish and before the last instant.
-/

namespace Multicast
open Std

namespace RefreshDriver
variable {σ : Type}

theorem unbind_start (config : RefreshConfig) (source : σ) (roles : NodeRoles)
    (requests : List Request) (positions : BitPositions) (binding : LinkBinding) :
    (start config source roles requests positions).unbind binding =
      start config source roles requests positions := by
  have fresh : LinkBindings.empty.isStale binding = false := by
    simp [LinkBindings.isStale, LinkBindings.empty]
  simp [unbind, start, LinkBindings.unbindIfStale, fresh]

variable [SnapshotSource σ]

/-- The driver is what the first refresh of another one has left. At most stale link bindings are
gone. -/
def Refreshed (first driver : RefreshDriver σ) : Prop :=
  ∃ outcome timers later, first.refresh 0 = (.ok (outcome, timers), later) ∧
    later.bindings.Sheds driver.bindings ∧ driver = { later with bindings := driver.bindings }

theorem Refreshed.unbind (first driver : RefreshDriver σ) (refreshed : first.Refreshed driver)
    (binding : LinkBinding) : first.Refreshed (driver.unbind binding) := by
  obtain ⟨outcome, timers, later, succeeded, sheds, same⟩ := refreshed
  refine ⟨outcome, timers, later, succeeded, LinkBindings.sheds_unbind _ _ sheds binding, ?_⟩
  unfold RefreshDriver.unbind
  rw [same]

theorem Refreshed.refresh_ne_ok (first driver : RefreshDriver σ) (refreshed : first.Refreshed driver)
    (outcome : RefreshOutcome × List TimerRequest) (later : RefreshDriver σ) :
    driver.refresh 0 ≠ (.ok outcome, later) := by
  obtain ⟨_, _, installed, succeeded, _, same⟩ := refreshed
  obtain ⟨_, _, _, _, _, last, _⟩ := first.exists_snapshot_of_refresh installed 0 _ _ succeeded
  have follows : driver.follows 0 ≠ .ok () := by
    have last : driver.lastEpoch = some 0 := by rw [same]; exact last
    simp [RefreshDriver.follows, last]
  intro again
  cases driver.ends_of_refresh_eq later 0 _ again with
  | built _ _ _ allowed => exact follows allowed

/-- What the one refresh of a static driver has put in place upholds every request that starts before
the finish. -/
theorem Refreshed.upholds (first driver : RefreshDriver σ) (refreshed : first.Refreshed driver)
    (routed : first.config.forwarding = .routeTable) (static : first.config.forceStatic = true)
    (separate : first.requests.Pairwise Request.Separate) (network : Snapshot)
    (load : (SnapshotSource.load first.source 0).1 = .ok network) (request : Request)
    (member : request ∈ first.requests) (starts : request.start < first.config.finishInstant)
    (lasts : 0 < request.finish) :
    ∃ tree, Tree.build request network = .ok tree ∧ driver.Upholds request tree := by
  obtain ⟨outcome, timers, later, succeeded, sheds, same⟩ := refreshed
  obtain ⟨snapshot, load', held, decides⟩ :=
    first.decides_of_refresh later 0 outcome timers routed separate succeeded
  obtain ⟨snapshot', load'', _, generation, needed, _⟩ :=
    first.bound_of_refresh later 0 outcome timers routed succeeded
  cases load.symm.trans load'
  cases load.symm.trans load''
  have current : request.activeDuring 0 (first.windowEnd 0) = true := by
    simp [Request.activeDuring, windowEnd, static, starts, lasts]
  obtain ⟨tree, built, inside, found⟩ := (decides request member).1 current
  have setting := first.setting_refresh 0
  rw [succeeded] at setting
  have roles : driver.roles = first.roles := by
    rw [same]
    exact congrArg (·.2.1) setting
  refine ⟨tree, built, ?_, fun node known origin => ?_, fun hop crosses ground => ?_⟩
  · rw [same, held]
    rfl
  · rw [same]
    exact found node (inside node known) origin
  · rw [roles] at ground
    have needs : first.Needs network 0 (tree.binding hop) :=
      (first.needs_iff ..).2 ⟨request, List.mem_filter.2 ⟨member, current⟩, tree, built,
        (Tree.mem_bindings ..).2 ⟨hop, crosses, ground, rfl⟩⟩
    have bound := needed _ needs
    -- The binding is of the generation in force, and so it has not been shed.
    rcases sheds.bound (tree.binding hop) with still | ⟨_, stale⟩
    · rw [ExtTreeMap.mem_iff_isSome_getElem?, still, bound]
      rfl
    · obtain ⟨older, which, before⟩ := (later.bindings.isStale_eq_true _).1 stale
      rw [bound, Option.some.injEq] at which
      omega

end RefreshDriver

namespace Simulation
variable {σ : Type} [SnapshotSource σ] (config : SimulationConfig) (source : σ) (roles : NodeRoles)
  (requests : List Request) (positions : BitPositions) (static : config.refresh.forceStatic = true)

include static in
theorem refreshed_of_course (log : List (Moment σ)) (simulation : Simulation σ)
    (course : (start config source roles requests positions).Course log simulation)
    (flawless : Flawless log) :
    let first := RefreshDriver.start config.refresh source roles requests positions
    (simulation.driver = first ∨ first.Refreshed simulation.driver) ∧ ∀ moment ∈ log,
      (moment.before.driver = first ∨ first.Refreshed moment.before.driver) ∧
        (moment.after.driver = first ∨ first.Refreshed moment.after.driver) := by
  intro first
  induction course with
  | start => exact ⟨.inl rfl, by simp⟩
  | step log simulation later horizon key event queue result earlier _ popped handled ih =>
    obtain ⟨before, rfl⟩ := (flawless_append log _).1 flawless
    obtain ⟨settled, each⟩ := ih before
    have driver := (simulation.pop event queue).driver_handle key.node event
    rw [handled] at driver
    have after : later.driver = first ∨ first.Refreshed later.driver := by
      dsimp only at driver
      rw [driver]
      split
      · rename_i epoch
        obtain ⟨done, paced⟩ := paced_of_course config source roles requests positions log simulation
          earlier before
        obtain ⟨due, _, at0, _⟩ := paced.eq_of_pop_refresh _ _ _ _ horizon key _ queue
          (simulation.queue.popped_of_popUntil queue horizon key _ popped) epoch rfl
        have single : done = 0 := due.resolve_right fun dynamic => by simp [static] at dynamic
        rw [single, Nat.zero_mul] at at0
        subst at0
        obtain ⟨outcome, timers, driver, succeeded⟩ :=
          (simulation.pop _ queue).ok_of_handle_refresh later key.node _ 0 rfl handled
        have succeeded : simulation.driver.refresh 0 = (.ok (outcome, timers), driver) := succeeded
        rcases settled with fresh | refreshed
        · rw [fresh] at succeeded
          have same : (simulation.pop (.timer (.refresh 0)) queue).driver = first := fresh
          rw [same, succeeded]
          exact .inr ⟨outcome, timers, driver, succeeded, LinkBindings.sheds_refl _, rfl⟩
        · exact absurd succeeded (refreshed.refresh_ne_ok _ _ _ _)
      · rename_i binding
        rcases settled with fresh | refreshed
        · have same : (simulation.pop (.timer (.unbind binding)) queue).driver = first := fresh
          rw [same]
          exact .inl (RefreshDriver.unbind_start _ _ _ _ _ binding)
        · exact .inr (refreshed.unbind _ _ binding)
      · exact settled
    exact ⟨after, List.forall_mem_append.2 ⟨each, List.forall_mem_singleton.2 ⟨settled, after⟩⟩⟩
  | rest log simulation horizon _ _ ih => exact ih flawless

variable (network : Snapshot) (load : (SnapshotSource.load source 0).1 = .ok network)
  (routed : config.refresh.forwarding = .routeTable)
  (distinct : requests.Pairwise fun one other => one.id % 2 ^ 32 ≠ other.id % 2 ^ 32)
  (log : List (Moment σ)) (simulation : Simulation σ)
  (course : (start config source roles requests positions).Course log simulation)
  (flawless : Flawless log)
include static load course flawless

theorem shown_of_static : Shown network log := by
  intro moment logged snapshot held
  obtain ⟨_, each⟩ := refreshed_of_course config source roles requests positions static log simulation
    course flawless
  rcases (each moment logged).2 with fresh | ⟨_, _, later, succeeded, _, same⟩
  · rw [fresh] at held
    cases held
  · obtain ⟨snapshot', _, _, load', held', _⟩ :=
      RefreshDriver.exists_snapshot_of_refresh _ later 0 _ _ succeeded
    have loaded : (SnapshotSource.load source 0).1 = .ok snapshot' := congrArg Prod.fst load'
    cases load.symm.trans loaded
    rw [same] at held
    cases held'.symm.trans held
    exact Snapshot.shows_self _

include routed distinct in
theorem upholds_of_course (request : Request) (member : request ∈ requests)
    (starts : request.start < config.refresh.finishInstant) (lasts : 0 < request.finish) (moment : Moment σ)
    (logged : moment ∈ log) (packet : moment.event.IsPacket) :
    ∃ tree, Tree.build request network = .ok tree ∧ moment.before.driver.Upholds request tree := by
  obtain ⟨_, each⟩ := refreshed_of_course config source roles requests positions static log simulation
    course flawless
  obtain ⟨_, paced⟩ := paced_of_course config source roles requests positions log simulation course
    flawless
  obtain ⟨_, _, served⟩ := paced.served moment logged packet
  obtain ⟨_, proper⟩ := ordered_of_course _ simulation log
    (gains_start config source roles requests positions).ordered course
  obtain ⟨_, _, _, _, held, _⟩ := served.inForce.exists_snapshot log proper flawless
  have refreshed := (each moment logged).1.resolve_left fun fresh => by
    rw [fresh] at held
    cases held
  exact refreshed.upholds _ _ routed static
    (distinct.imp fun different => Request.separate_of_ids _ _ different) network load request member
    starts lasts

end Simulation
end Multicast
