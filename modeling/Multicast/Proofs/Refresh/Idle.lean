import Multicast.Proofs.Refresh.Alone
import Multicast.Proofs.Refresh.Failure
import Multicast.Proofs.Table

/-!
Requests without any time. A request is active in a window if it starts before the end of the window
and finishes after its begin, which is more than to have an instant in the window: a request of no
duration that starts inside the window is active in it although it never sends. Main statement: how far
a refresh notices such requests.
-/

namespace Multicast
open Std

namespace Request

/-- Some instant of the window is one of the request's own. -/
def Meets (request : Request) (opening closing : Nat) : Prop :=
  ∃ instant, request.start ≤ instant ∧ instant < request.finish ∧
    opening ≤ instant ∧ instant < closing

section
variable (request : Request) (opening closing : Nat)

theorem activeDuring_iff : request.activeDuring opening closing = true ↔
    request.start < closing ∧ opening < request.finish := by
  unfold activeDuring
  rw [Bool.and_eq_true, decide_eq_true_eq, decide_eq_true_eq]

theorem meets_iff : request.Meets opening closing ↔
    request.start < closing ∧ opening < request.finish ∧
      request.start < request.finish ∧ opening < closing := by
  constructor
  · rintro ⟨instant, started, unfinished, opened, unclosed⟩
    omega
  · intro overlap
    exact ⟨max request.start opening, by omega⟩

/-- Being active is meeting the window, unless the request or the window is empty and lies inside the
other. -/
theorem activeDuring_iff_meets :
    (request.activeDuring opening closing = true ↔ request.Meets opening closing) ↔
      ¬(request.start < closing ∧ opening < request.finish ∧
        (request.finish ≤ request.start ∨ closing ≤ opening)) := by
  rw [activeDuring_iff, meets_iff]
  omega

end
end Request

namespace Generation

def entriesFor (snapshot : Snapshot) (request : Request) : Nat :=
  match Tree.build request snapshot with
  | .error _ => 0
  | .ok tree => tree.nodes.size

theorem foldlM_eq_ok (roles : NodeRoles) (snapshot : Snapshot) (generation next : Generation)
    (requests : List Request)
    (built : requests.foldlM (addTree roles snapshot) generation = .ok next) :
    (∀ request ∈ requests, request.HasTree snapshot generation.routing.nodeCount) ∧
      next.entries = generation.entries + total (requests.map (entriesFor snapshot)) := by
  induction requests generalizing generation with
  | nil =>
    cases built
    exact ⟨by simp, rfl⟩
  | cons first rest ih =>
    obtain ⟨middle, added, built⟩ := (Traversal.foldlM_cons_eq_ok ..).1 built
    obtain ⟨trees, entries⟩ := ih middle built
    obtain ⟨tree, found, inside, rfl⟩ := (addTree_eq_ok ..).1 added
    rw [RoutingState.nodeCount_withTree] at trees
    have own : entriesFor snapshot first = tree.nodes.size := by
      unfold entriesFor
      rw [found]
    refine ⟨List.forall_mem_cons.2 ⟨⟨tree, found, inside⟩, trees⟩, ?_⟩
    rw [entries, List.map_cons, total_cons, own]
    exact Nat.add_assoc _ _ _

theorem addTree_eq_error_of_nodeCount (roles : NodeRoles) (snapshot : Snapshot)
    (generation own : Generation) (request : Request) (error : RefreshError)
    (nodeCount : own.routing.nodeCount = generation.routing.nodeCount)
    (failed : generation.addTree roles snapshot request = .error error) :
    own.addTree roles snapshot request = .error error := by
  unfold addTree RoutingState.installTree RoutingState.installTreeInPlace at failed ⊢
  cases built : Tree.build request snapshot with
  | error other => rwa [built] at failed
  | ok tree =>
    rw [built] at failed
    dsimp only at failed ⊢
    rw [nodeCount]
    cases outside : tree.nodes.keys.find? fun node => generation.routing.nodeCount ≤ node with
    | none =>
      rw [outside] at failed
      cases failed
    | some node => rwa [outside] at failed

/-- If some requests are left out, the first thing that was wrong still is, unless it was wrong with one
of those that are left out. -/
theorem error_of_filter (roles : NodeRoles) (snapshot : Snapshot) (keep : Request → Bool)
    (requests : List Request) (generation own : Generation)
    (nodeCount : own.routing.nodeCount = generation.routing.nodeCount) (error : RefreshError)
    (failed : requests.foldlM (addTree roles snapshot) generation = .error error) :
    (requests.filter keep).foldlM (addTree roles snapshot) own = .error error ∨
      ∃ request ∈ requests, keep request = false ∧
        Fault snapshot generation.routing.nodeCount [request] error := by
  induction requests generalizing generation own with
  | nil => cases failed
  | cons first rest ih =>
    rw [List.foldlM_cons] at failed
    cases added : generation.addTree roles snapshot first with
    | error other =>
      rw [added] at failed
      cases failed
      cases kept : keep first with
      | true =>
        have stops := addTree_eq_error_of_nodeCount roles snapshot generation own first error
          nodeCount added
        left
        rw [List.filter_cons_of_pos kept, List.foldlM_cons, stops]
        rfl
      | false =>
        have fault := generation.fault_of_addTree roles snapshot [first] first List.mem_cons_self
          error added
        exact .inr ⟨first, List.mem_cons_self, kept, fault⟩
    | ok middle =>
      rw [added] at failed
      obtain ⟨tree, found, inside, same⟩ := (addTree_eq_ok ..).1 added
      have grown : middle.routing.nodeCount = generation.routing.nodeCount := by
        rw [same, RoutingState.nodeCount_withTree]
      have later (next : Generation) (counted : next.routing.nodeCount = own.routing.nodeCount) :
          (rest.filter keep).foldlM (addTree roles snapshot) next = .error error ∨
            ∃ request ∈ first :: rest, keep request = false ∧
              Fault snapshot generation.routing.nodeCount [request] error := by
        have stops := ih middle next (counted.trans (nodeCount.trans grown.symm)) failed
        rw [grown] at stops
        apply stops.imp_right
        rintro ⟨request, member, left, fault⟩
        exact ⟨request, List.mem_cons_of_mem _ member, left, fault⟩
      cases kept : keep first with
      | true =>
        have taken : own.addTree roles snapshot first = .ok { own with
            routing := own.routing.withTree tree
            entries := own.entries + tree.nodes.size
            bindings := own.bindings ++ tree.bindings roles } :=
          (addTree_eq_ok ..).2 ⟨tree, found, by rwa [nodeCount], rfl⟩
        rw [List.filter_cons_of_pos kept, List.foldlM_cons, taken]
        exact later _ (RoutingState.nodeCount_withTree ..)
      | false =>
        rw [List.filter_cons_of_neg (by simp [kept])]
        exact later own rfl

end Generation

namespace RefreshDriver
variable {σ : Type}

/-- The driver for the requests of some duration only. -/
def withoutIdle (driver : RefreshDriver σ) : RefreshDriver σ :=
  { driver with requests := driver.requests.filter (·.duration ≠ 0) }

def idleIn (driver : RefreshDriver σ) (epoch : Nat) : List Request :=
  (driver.activeRequests epoch).filter (·.duration = 0)

section
variable (driver : RefreshDriver σ) (epoch : Nat)

theorem mem_idleIn (request : Request) : request ∈ driver.idleIn epoch ↔
    request ∈ driver.requests ∧ request.duration = 0 ∧
      request.start < driver.windowEnd epoch ∧ epoch < request.finish := by
  unfold idleIn activeRequests
  rw [List.mem_filter, List.mem_filter, Request.activeDuring_iff, decide_eq_true_eq]
  tauto

theorem activeRequests_withoutIdle : driver.withoutIdle.activeRequests epoch =
    (driver.activeRequests epoch).filter (·.duration ≠ 0) := by
  have window : driver.withoutIdle.windowEnd epoch = driver.windowEnd epoch := rfl
  unfold activeRequests
  rw [window, List.filter_filter]
  unfold withoutIdle
  rw [List.filter_filter]
  apply List.filter_congr
  intro request _
  exact Bool.and_comm _ _

theorem perm_withoutIdle : (driver.withoutIdle.activeRequests epoch ++ driver.idleIn epoch).Perm
    (driver.activeRequests epoch) := by
  have split := List.filter_append_perm (fun request : Request => decide (request.duration ≠ 0))
    (driver.activeRequests epoch)
  have rest : (driver.activeRequests epoch).filter (fun request => !decide (request.duration ≠ 0)) =
      driver.idleIn epoch := by
    apply List.filter_congr
    intro request _
    simp
  rwa [rest, ← activeRequests_withoutIdle] at split

theorem length_withoutIdle : (driver.withoutIdle.activeRequests epoch).length +
    (driver.idleIn epoch).length = (driver.activeRequests epoch).length := by
  rw [← List.length_append]
  exact (driver.perm_withoutIdle epoch).length_eq

theorem total_withoutIdle (size : Request → Nat) :
    total ((driver.withoutIdle.activeRequests epoch).map size) +
      total ((driver.idleIn epoch).map size) = total ((driver.activeRequests epoch).map size) := by
  rw [← total_append, ← List.map_append]
  exact total_perm ((driver.perm_withoutIdle epoch).map size)

end

section
variable [SnapshotSource σ] (driver later : RefreshDriver σ) (epoch : Nat)

theorem refresh_withoutIdle_of_nil (none : driver.idleIn epoch = []) :
    driver.withoutIdle.refresh epoch =
      ((driver.refresh epoch).1, (driver.refresh epoch).2.withoutIdle) := by
  have active : driver.withoutIdle.activeRequests epoch = driver.activeRequests epoch := by
    rw [activeRequests_withoutIdle]
    apply List.filter_eq_self.2
    intro request member
    have kept := List.filter_eq_nil_iff.1 none request member
    simpa using kept
  have ways := driver.ends_refresh epoch
  generalize (driver.refresh epoch).1 = result at ways ⊢
  generalize (driver.refresh epoch).2 = later at ways ⊢
  apply Ends.refresh_eq
  cases ways with
  | early error follows => exact .early error follows
  | unloaded error source follows load => exact .unloaded error source follows load
  | unbuilt error snapshot source follows load build =>
    exact .unbuilt error snapshot source follows load (by rwa [active])
  | built snapshot source generation follows load build outcome timers later install =>
    have follows' : driver.withoutIdle.follows epoch = .ok () := follows
    have build' : driver.withoutIdle.build snapshot (driver.withoutIdle.activeRequests epoch) =
        .ok generation := by
      rw [active]
      exact build
    refine .built snapshot source generation follows' load build' outcome timers _ ?_
    rw [active]
    cases install
    rfl

theorem refresh_withoutIdle_of_error (error : RefreshError)
    (failed : (driver.refresh epoch).1 = .error error)
    (failed' : (driver.withoutIdle.refresh epoch).1 = .error error) :
    driver.withoutIdle.refresh epoch =
      ((driver.refresh epoch).1, (driver.refresh epoch).2.withoutIdle) := by
  have ways := driver.ends_refresh epoch
  rw [failed] at ways ⊢
  generalize (driver.refresh epoch).2 = later at ways ⊢
  apply Ends.refresh_eq
  cases ways with
  | early error follows => exact .early error follows
  | unloaded error source follows load => exact .unloaded error source follows load
  | unbuilt error snapshot source follows load build =>
    refine .unbuilt error snapshot source follows load ?_
    cases build' : driver.withoutIdle.build snapshot (driver.withoutIdle.activeRequests epoch) with
    | error other =>
      have same := Ends.refresh_eq driver.withoutIdle _ epoch _
        (.unbuilt other snapshot source follows load build')
      rw [same] at failed'
      exact congrArg Except.error (Except.error.inj failed')
    | ok generation =>
      have done := driver.withoutIdle.refresh_of_build epoch snapshot source generation follows load
        build'
      rw [done] at failed'
      cases failed'

/-- A refresh that fails with them fails for the same reason without them, or it is one of them that
something is wrong with. -/
theorem refresh_withoutIdle_eq_error (error : RefreshError)
    (failed : (driver.refresh epoch).1 = .error error) :
    (driver.withoutIdle.refresh epoch).1 = .error error ∨
      driver.config.forwarding = .routeTable ∧ ∃ snapshot, ∃ request ∈ driver.idleIn epoch,
        (SnapshotSource.load driver.source epoch).1 = .ok snapshot ∧
        Generation.Fault snapshot driver.roles.nodeCount [request] error := by
  have ways := driver.ends_refresh epoch
  rw [failed] at ways
  generalize (driver.refresh epoch).2 = later at ways
  cases ways with
  | early error follows =>
    exact .inl (congrArg Prod.fst (Ends.refresh_eq driver.withoutIdle _ epoch _
      (.early error follows)))
  | unloaded error source follows load =>
    exact .inl (congrArg Prod.fst (Ends.refresh_eq driver.withoutIdle _ epoch _
      (.unloaded error source follows load)))
  | unbuilt error snapshot source follows load build =>
    have stops (build' : driver.withoutIdle.build snapshot
        (driver.withoutIdle.activeRequests epoch) = .error error) :
        (driver.withoutIdle.refresh epoch).1 = .error error :=
      congrArg Prod.fst (Ends.refresh_eq driver.withoutIdle _ epoch _
        (.unbuilt error snapshot source follows load build'))
    cases mode : driver.config.forwarding with
    | bier =>
      left
      apply stops
      rw [driver.build_bier snapshot _ mode] at build
      rw [driver.withoutIdle.build_bier snapshot _ mode]
      exact build
    | routeTable =>
      rw [driver.build_routeTable snapshot _ mode] at build
      have ends := Generation.error_of_filter driver.roles snapshot (·.duration ≠ 0) _ _
        ⟨.empty driver.roles.nodeCount, driver.bierTables, 0, []⟩ rfl error build
      rw [← activeRequests_withoutIdle, (Generation.holds_empty snapshot driver.roles.nodeCount
        driver.bierTables).nodeCount] at ends
      cases ends with
      | inl still =>
        left
        apply stops
        rw [driver.withoutIdle.build_routeTable snapshot _ mode]
        exact still
      | inr fault =>
        obtain ⟨request, member, idle, fault⟩ := fault
        refine .inr ⟨rfl, snapshot, request, ?_, congrArg Prod.fst load, fault⟩
        exact List.mem_filter.2 ⟨member, by simpa using idle⟩

omit [SnapshotSource σ] in
theorem exists_build_withoutIdle (snapshot : Snapshot) (generation : Generation)
    (built : driver.build snapshot (driver.activeRequests epoch) = .ok generation) :
    ∃ spared, driver.withoutIdle.build snapshot (driver.withoutIdle.activeRequests epoch) =
        .ok spared ∧
      (driver.config.forwarding = .routeTable → spared.entries +
        total ((driver.idleIn epoch).map (Generation.entriesFor snapshot)) = generation.entries) ∧
      (driver.config.forwarding = .bier → spared = generation) := by
  cases mode : driver.config.forwarding with
  | routeTable =>
    rw [driver.build_routeTable snapshot _ mode] at built
    rw [driver.withoutIdle.build_routeTable snapshot _ mode]
    have counted := (Generation.holds_empty snapshot driver.roles.nodeCount
      driver.bierTables).nodeCount
    obtain ⟨trees, entries⟩ := Generation.foldlM_eq_ok _ _ _ _ _ built
    rw [counted] at trees
    have kept : ∀ request ∈ driver.withoutIdle.activeRequests epoch,
        request.HasTree snapshot driver.roles.nodeCount := by
      intro request member
      rw [activeRequests_withoutIdle] at member
      exact trees request (List.mem_filter.1 member).1
    obtain ⟨spared, done⟩ := Generation.exists_foldlM driver.roles snapshot driver.roles.nodeCount
      _ _ counted kept
    have fewer := (Generation.foldlM_eq_ok _ _ _ _ _ done).2
    refine ⟨spared, done, fun _ => ?_, nofun⟩
    have sum := driver.total_withoutIdle epoch (Generation.entriesFor snapshot)
    omega
  | bier =>
    rw [driver.build_bier snapshot _ mode] at built
    rw [driver.withoutIdle.build_bier snapshot _ mode]
    exact ⟨generation, built, nofun, fun _ => rfl⟩

def only (request : Request) : RefreshDriver σ :=
  { driver with
    requests := [request]
    bindings := driver.bindings.ofGroup (request.group .routeBase) }

omit [SnapshotSource σ] in
theorem alike_only (request : Request) (member : request ∈ driver.requests)
    (separate : driver.requests.Pairwise Request.Separate) :
    Alike request driver (driver.only request) where
  member
  separate
  requests := rfl
  config := rfl
  source := rfl
  roles := rfl
  positions := rfl
  tables := rfl
  snapshot := rfl
  lastEpoch := rfl
  bindings := rfl
  decides _ _ := rfl

/-- A request gets the same routes, bindings and removals of bindings from both drivers. -/
structure SameFor (request : Request) (later later' : RefreshDriver σ)
    (timers timers' : List TimerRequest) : Prop where
  decides : ∀ node origin,
    later'.routing.arbitrate node request.source origin (request.group .routeBase) =
      later.routing.arbitrate node request.source origin (request.group .routeBase)
  bindings : later'.bindings.ofGroup (request.group .routeBase) =
    later.bindings.ofGroup (request.group .routeBase)
  timers : timers'.filter (·.timer.concerns request) = timers.filter (·.timer.concerns request)

theorem sameFor_withoutIdle (separate : driver.requests.Pairwise Request.Separate)
    (outcome outcome' : RefreshOutcome) (timers timers' : List TimerRequest)
    (later' : RefreshDriver σ) (refreshed : driver.refresh epoch = (.ok (outcome, timers), later))
    (refreshed' : driver.withoutIdle.refresh epoch = (.ok (outcome', timers'), later'))
    (request : Request) (member : request ∈ driver.requests) (lasts : request.duration ≠ 0) :
    SameFor request later later' timers timers' := by
  -- Both refreshes are compared with one that serves the request alone.
  have kept : request ∈ driver.withoutIdle.requests :=
    List.mem_filter.2 ⟨member, by simpa using lasts⟩
  have apart : driver.withoutIdle.requests.Pairwise Request.Separate :=
    separate.sublist List.filter_sublist
  obtain ⟨_, last, done, alike⟩ := (driver.alike_only request member separate).refresh request driver
    _ epoch outcome timers later refreshed
  obtain ⟨_, last', done', alike'⟩ := (driver.withoutIdle.alike_only request kept apart).refresh
    request driver.withoutIdle _ epoch outcome' timers' later' refreshed'
  have same : (driver.withoutIdle.only request).refresh epoch = (driver.only request).refresh epoch :=
    rfl
  rw [same, done, Prod.mk.injEq, Except.ok.injEq, Prod.mk.injEq] at done'
  obtain ⟨⟨_, asked⟩, rfl⟩ := done'
  exact {
    decides := fun node origin =>
      (alike'.decides node origin).symm.trans (alike.decides node origin)
    bindings := alike'.bindings.symm.trans alike.bindings
    timers := asked.symm }

/-- What it does to a refresh that succeeds if the requests of no duration are left out. -/
structure Spares (outcome outcome' : RefreshOutcome) (timers timers' : List TimerRequest)
    (later later' : RefreshDriver σ) : Prop where
  active : outcome'.activeRequests + (driver.idleIn epoch).length = outcome.activeRequests
  entries : driver.config.forwarding = .routeTable → ∃ snapshot,
    (SnapshotSource.load driver.source epoch).1 = .ok snapshot ∧
      outcome'.entriesInstalled + total ((driver.idleIn epoch).map (Generation.entriesFor snapshot)) =
        outcome.entriesInstalled
  bier : driver.config.forwarding = .bier →
    outcome' = { outcome with activeRequests := outcome'.activeRequests } ∧ timers' = timers ∧
      later' = later.withoutIdle
  others : driver.requests.Pairwise Request.Separate → ∀ request ∈ driver.requests,
    request.duration ≠ 0 → SameFor request later later' timers timers'

theorem exists_spares (outcome : RefreshOutcome) (timers : List TimerRequest)
    (refreshed : driver.refresh epoch = (.ok (outcome, timers), later)) :
    ∃ outcome' timers' later', driver.withoutIdle.refresh epoch = (.ok (outcome', timers'), later') ∧
      driver.Spares epoch outcome outcome' timers timers' later later' := by
  cases driver.ends_of_refresh_eq later epoch _ refreshed with
  | built snapshot source generation follows load build outcome timers later install =>
    obtain ⟨spared, build', entries, same⟩ := driver.exists_build_withoutIdle epoch snapshot
      generation build
    have refreshed' := driver.withoutIdle.refresh_of_build epoch snapshot source spared follows load
      build'
    refine ⟨_, _, _, refreshed', ?_, ?_, ?_, ?_⟩
    · cases install
      exact driver.length_withoutIdle epoch
    · intro routed
      cases install
      exact ⟨snapshot, congrArg Prod.fst load, entries routed⟩
    · intro bier
      cases same bier
      cases install
      exact ⟨rfl, rfl, rfl⟩
    · intro separate request member lasts
      exact driver.sameFor_withoutIdle later epoch separate _ _ _ _ _ refreshed refreshed' request
        member lasts

/-- A request is active in a window exactly if it meets it, but for an empty request inside the window
and an empty window inside the request. So the requests of no duration that start inside the window of
an epoch take part in its refresh, and nobody notices that if there are none, or if the refresh fails
for a reason that is not one of theirs. If it succeeds, they count as active and take their entries;
what the other requests get is the same without them. -/
theorem refresh_notices_idle :
    (∀ (request : Request) (opening closing : Nat),
      (request.activeDuring opening closing = true ↔ request.Meets opening closing) ↔
        ¬(request.start < closing ∧ opening < request.finish ∧
          (request.finish ≤ request.start ∨ closing ≤ opening))) ∧
    (∀ request, request ∈ driver.idleIn epoch ↔ request ∈ driver.requests ∧ request.duration = 0 ∧
      request.start < driver.windowEnd epoch ∧ epoch < request.finish) ∧
    (driver.withoutIdle.refresh epoch =
        ((driver.refresh epoch).1, (driver.refresh epoch).2.withoutIdle) ↔
      driver.idleIn epoch = [] ∨ ∃ error, (driver.refresh epoch).1 = .error error ∧
        (driver.withoutIdle.refresh epoch).1 = .error error) ∧
    (∀ error, (driver.refresh epoch).1 = .error error →
      (driver.withoutIdle.refresh epoch).1 = .error error ∨
        driver.config.forwarding = .routeTable ∧ ∃ snapshot, ∃ request ∈ driver.idleIn epoch,
          (SnapshotSource.load driver.source epoch).1 = .ok snapshot ∧
          Generation.Fault snapshot driver.roles.nodeCount [request] error) ∧
    ∀ outcome timers later, driver.refresh epoch = (.ok (outcome, timers), later) →
      ∃ outcome' timers' later',
        driver.withoutIdle.refresh epoch = (.ok (outcome', timers'), later') ∧
          driver.Spares epoch outcome outcome' timers timers' later later' := by
  refine ⟨Request.activeDuring_iff_meets, driver.mem_idleIn epoch, ?_,
    driver.refresh_withoutIdle_eq_error epoch,
    fun outcome timers later => driver.exists_spares later epoch outcome timers⟩
  constructor
  · intro unnoticed
    cases result : (driver.refresh epoch).1 with
    | error error =>
      right
      refine ⟨error, rfl, ?_⟩
      rw [unnoticed]
      exact result
    | ok success =>
      left
      obtain ⟨outcome', timers', later', refreshed', spares⟩ := driver.exists_spares _ epoch success.1
        success.2 (Prod.ext result rfl)
      rw [unnoticed, result, Prod.mk.injEq, Except.ok.injEq] at refreshed'
      have active := spares.active
      rw [refreshed'.1] at active
      exact List.eq_nil_of_length_eq_zero (Nat.add_eq_left.1 active)
  · rintro (none | ⟨error, failed, failed'⟩)
    · exact driver.refresh_withoutIdle_of_nil epoch none
    · exact driver.refresh_withoutIdle_of_error epoch error failed failed'

end

def idlingDriver : RefreshDriver SnapshotPlan :=
  start { interval := 10, finish := 30 } (.diamond 10) (.ofCounts 4 1)
    [⟨0, 0, (∅ : NodeSet).insertMany [3], 10.0, 0, 30, "", ""⟩,
      ⟨1, 3, (∅ : NodeSet).insertMany [0], 10.0, 5, 0, "", ""⟩] .empty

/-- A request without any instant is active in the window around its start, and the refresh fails on it,
which installs the three entries of the other request if it is left out. -/
theorem idling_is_noticed :
    (∃ request ∈ idlingDriver.requests, request.duration = 0 ∧
      request.activeDuring 0 10 = true ∧ ¬request.Meets 0 10) ∧
    (idlingDriver.refresh 0).1 = .error (.tree (.unicast 1 (.noRoute 3 0))) ∧
    (idlingDriver.withoutIdle.refresh 0).1.toOption.map (fun done =>
      (done.1.activeRequests, done.1.entriesInstalled)) = some (1, 3) := by
  have idle : idlingDriver.requests[1].activeDuring 0 10 = true := by decide +kernel
  have fails : (idlingDriver.refresh 0).1 = .error (.tree (.unicast 1 (.noRoute 3 0))) := by
    decide +kernel
  have succeeds : (idlingDriver.withoutIdle.refresh 0).1.toOption.map (fun done =>
      (done.1.activeRequests, done.1.entriesInstalled)) = some (1, 3) := by decide +kernel
  refine ⟨⟨_, List.getElem_mem _, rfl, idle, ?_⟩, fails, succeeds⟩
  rw [Request.meets_iff]
  decide

end RefreshDriver
end Multicast
