import Multicast.Proofs.Refresh.Network
import Multicast.Proofs.Refresh.Renewal

/-!
Drivers for one request of several. The groups of requests keep their routes and their link bindings
apart. Main statement: where a refresh for all requests succeeds, a refresh for one of them alone
succeeds, and leaves the same for the request, down to the removals of bindings that it asks for.
-/

namespace Multicast
open Std

/-! ## The bindings of a group -/

namespace LinkBindings

def ofGroup (bindings : LinkBindings) (group : GroupAddress) : LinkBindings :=
  { bindings with bound := bindings.bound.filter fun binding _ => binding.group = group }

section
variable (bindings : LinkBindings) (group : GroupAddress)

theorem bound_ofGroup (binding : LinkBinding) :
    (bindings.ofGroup group).bound[binding]? =
      if binding.group = group then bindings.bound[binding]? else none := by
  simp only [ofGroup, ExtTreeMap.getElem?_filter']
  by_cases own : binding.group = group
  · rw [if_pos own]
    cases bindings.bound[binding]? <;> simp [own]
  · rw [if_neg own]
    cases bindings.bound[binding]? <;> simp [own]

theorem eq_ofGroup (others : LinkBindings) (generation : others.generation = bindings.generation)
    (bound : ∀ binding : LinkBinding, others.bound[binding]? =
      if binding.group = group then bindings.bound[binding]? else none) :
    others = bindings.ofGroup group := by
  have same : others.bound = (bindings.ofGroup group).bound :=
    ExtTreeMap.ext_getElem? fun binding => by rw [bound, bound_ofGroup]
  obtain ⟨_, _⟩ := others
  obtain rfl : _ = bindings.generation := generation
  obtain rfl : _ = (bindings.ofGroup group).bound := same
  rfl

theorem ofGroup_empty : empty.ofGroup group = empty := by
  refine (eq_ofGroup empty group empty rfl fun binding => ?_).symm
  simp [empty]

theorem ofGroup_bindAll (added : List LinkBinding) :
    (bindings.bindAll added).1.ofGroup group =
      ((bindings.ofGroup group).bindAll (added.filter (·.group = group))).1 := by
  symm
  apply eq_ofGroup
  · rw [(bound_bindAll _ _ default).2, (bound_bindAll _ _ default).2]
    rfl
  · intro binding
    rw [(bound_bindAll _ _ binding).1, (bound_bindAll _ _ binding).1, bound_ofGroup]
    by_cases own : binding.group = group
    · simp [own, ofGroup]
    · simp [own]

theorem newlyStale_ofGroup :
    (bindings.ofGroup group).newlyStale = bindings.newlyStale.filter (·.group = group) := by
  simp only [newlyStale, ofGroup, ← ExtTreeMap.map_fst_toList_eq_keys, ExtTreeMap.toList_filter,
    List.filter_map, List.filter_filter]
  congr 1
  exact List.filter_congr fun entry _ => Bool.and_comm _ _

theorem receivers_ofGroup (node : NodeId) (interface : InterfaceId) :
    (bindings.ofGroup group).receivers group node interface =
      bindings.receivers group node interface := by
  rw [receivers_eq, receivers_eq]
  simp only [ofGroup, ExtTreeMap.keys_filter_key, List.filter_filter]
  congr 1
  refine List.filter_congr fun binding _ => ?_
  by_cases own : binding.group = group <;> simp [own]

theorem isStale_ofGroup (binding : LinkBinding) (own : binding.group = group) :
    (bindings.ofGroup group).isStale binding = bindings.isStale binding := by
  unfold isStale
  rw [bound_ofGroup, if_pos own]
  rfl

theorem bound_unbindIfStale (removed binding : LinkBinding) :
    (bindings.unbindIfStale removed).bound[binding]? =
      if removed = binding ∧ bindings.isStale removed = true then none
      else bindings.bound[binding]? := by
  unfold unbindIfStale
  split
  · rename_i stale
    simp [ExtTreeMap.getElem?_erase, stale]
  · rename_i fresh
    simp [fresh]

theorem ofGroup_unbindIfStale (removed : LinkBinding) :
    (bindings.unbindIfStale removed).ofGroup group =
      if removed.group = group then (bindings.ofGroup group).unbindIfStale removed
      else bindings.ofGroup group := by
  by_cases own : removed.group = group
  · rw [if_pos own]
    symm
    refine eq_ofGroup _ _ _ ?_ fun binding => ?_
    · unfold unbindIfStale
      split <;> split <;> rfl
    · rw [bound_unbindIfStale, bound_unbindIfStale, isStale_ofGroup _ _ _ own, bound_ofGroup]
      split <;> simp
  · rw [if_neg own]
    symm
    refine eq_ofGroup _ _ _ ?_ fun binding => ?_
    · unfold unbindIfStale
      split <;> rfl
    · rw [bound_unbindIfStale, bound_ofGroup]
      by_cases mine : binding.group = group
      · have other : removed ≠ binding := by
          rintro rfl
          exact own mine
        simp [mine, other]
      · simp [mine]

end
end LinkBindings

/-! ## The generation of a request -/

namespace Request

theorem filter_key {κ : Type} [DecidableEq κ] (key : Request → κ) (requests : List Request)
    (apart : requests.Pairwise fun one other => key one ≠ key other) (request : Request)
    (member : request ∈ requests) :
    requests.filter (fun other => key other = key request) = [request] := by
  induction requests with
  | nil => cases member
  | cons first rest ih =>
    obtain ⟨different, apart⟩ := List.pairwise_cons.1 apart
    rcases List.mem_cons.1 member with rfl | later
    · have others : rest.filter (fun other => key other = key request) = [] :=
        List.filter_eq_nil_iff.2 fun other listed => by
          simpa using (different other listed).symm
      rw [List.filter_cons_of_pos (by simp), others]
    · rw [List.filter_cons_of_neg (by simpa using different request later), ih apart later]

def sameGroup (request other : Request) : Bool :=
  other.group .routeBase = request.group .routeBase

end Request

namespace Generation

/-- What can be built for all requests can be built for those of one group, and their bindings are
those of the group. -/
theorem exists_foldlM_sameGroup (roles : NodeRoles) (snapshot : Snapshot) (request : Request)
    (requests : List Request) (generation next own : Generation)
    (built : requests.foldlM (addTree roles snapshot) generation = .ok next)
    (nodeCount : own.routing.nodeCount = generation.routing.nodeCount)
    (tables : own.bierTables = generation.bierTables)
    (bindings : own.bindings =
      generation.bindings.filter (·.group = request.group .routeBase)) :
    ∃ last, (requests.filter request.sameGroup).foldlM (addTree roles snapshot) own = .ok last ∧
      last.bierTables = next.bierTables ∧
      last.bindings = next.bindings.filter (·.group = request.group .routeBase) := by
  -- `own` lacks the routes of the other groups, so nothing is said of its routes here but their size.
  induction requests generalizing generation own with
  | nil =>
    cases built
    exact ⟨own, rfl, tables, bindings⟩
  | cons first rest ih =>
    obtain ⟨middle, added, built⟩ := (Traversal.foldlM_cons_eq_ok ..).1 built
    obtain ⟨tree, found, inside, rfl⟩ := (addTree_eq_ok ..).1 added
    have group := first.group_of_build snapshot tree found
    have grouped (binding : LinkBinding) (listed : binding ∈ tree.bindings roles) :
        binding.group = first.group .routeBase := by
      obtain ⟨hop, _, _, rfl⟩ := (tree.mem_bindings roles binding).1 listed
      exact group
    cases same : request.sameGroup first with
    | true =>
      have mine : first.group .routeBase = request.group .routeBase := of_decide_eq_true same
      rw [List.filter_cons_of_pos same]
      have taken : own.addTree roles snapshot first = .ok { own with
          routing := own.routing.withTree tree
          entries := own.entries + tree.nodes.size
          bindings := own.bindings ++ tree.bindings roles } :=
        (addTree_eq_ok ..).2 ⟨tree, found, by rwa [nodeCount], rfl⟩
      have all : (tree.bindings roles).filter (·.group = request.group .routeBase) =
          tree.bindings roles :=
        List.filter_eq_self.2 fun binding listed =>
          decide_eq_true ((grouped binding listed).trans mine)
      obtain ⟨last, done, same⟩ := ih _ { own with
          routing := own.routing.withTree tree
          entries := own.entries + tree.nodes.size
          bindings := own.bindings ++ tree.bindings roles } built
        (by simp only [RoutingState.nodeCount_withTree, nodeCount]) tables
        (by rw [List.filter_append, bindings, all])
      exact ⟨last, (Traversal.foldlM_cons_eq_ok ..).2 ⟨_, taken, done⟩, same⟩
    | false =>
      have other : first.group .routeBase ≠ request.group .routeBase := of_decide_eq_false same
      rw [List.filter_cons_of_neg (by simp [same])]
      have none : (tree.bindings roles).filter (·.group = request.group .routeBase) = [] :=
        List.filter_eq_nil_iff.2 fun binding listed => by
          simpa [grouped binding listed] using other
      exact ih _ own built (by simp only [RoutingState.nodeCount_withTree, nodeCount]) tables
        (by rw [List.filter_append, bindings, none, List.append_nil])

end Generation

/-! ## The driver of a request -/

/-- Whether the timer touches the state that serves the request. -/
def Timer.concerns (request : Request) : Timer → Bool
  | .refresh _ => true
  | .unbind binding => binding.group = request.group .routeBase

namespace RefreshDriver
variable {σ : Type}

/-- One of two drivers serves the request alone, and it does what the other one does for it. -/
structure Alike (request : Request) (all alone : RefreshDriver σ) : Prop where
  member : request ∈ all.requests
  separate : all.requests.Pairwise Request.Separate
  requests : alone.requests = [request]
  config : alone.config = all.config
  source : alone.source = all.source
  roles : alone.roles = all.roles
  positions : alone.positions = all.positions
  tables : alone.bierTables = all.bierTables
  snapshot : alone.snapshot = all.snapshot
  lastEpoch : alone.lastEpoch = all.lastEpoch
  bindings : alone.bindings = all.bindings.ofGroup (request.group .routeBase)
  decides : ∀ node origin,
    alone.routing.arbitrate node request.source origin (request.group .routeBase) =
      all.routing.arbitrate node request.source origin (request.group .routeBase)

theorem alike_start (config : RefreshConfig) (source : σ) (roles : NodeRoles)
    (requests : List Request) (positions : BitPositions)
    (separate : requests.Pairwise Request.Separate) (request : Request)
    (member : request ∈ requests) :
    Alike request (start config source roles requests positions)
      (start config source roles [request] positions) where
  member
  separate
  requests := rfl
  config := rfl
  source := rfl
  roles := rfl
  positions := rfl
  tables := rfl
  snapshot := rfl
  lastEpoch := rfl
  bindings := (LinkBindings.ofGroup_empty _).symm
  decides _ _ := rfl

section
variable (request : Request) (all alone : RefreshDriver σ) (alike : Alike request all alone)
include alike

theorem Alike.unbind (binding : LinkBinding) :
    Alike request (all.unbind binding)
      (if (Timer.unbind binding).concerns request then alone.unbind binding else alone) := by
  have removed := all.bindings.ofGroup_unbindIfStale (request.group .routeBase) binding
  by_cases own : binding.group = request.group .routeBase
  · rw [if_pos own] at removed
    have mine : (Timer.unbind binding).concerns request = true := decide_eq_true own
    rw [if_pos mine]
    exact { alike with
      bindings := by simp only [RefreshDriver.unbind, alike.bindings, removed] }
  · rw [if_neg own] at removed
    have other : ¬(Timer.unbind binding).concerns request = true := by simpa [Timer.concerns] using own
    rw [if_neg other]
    exact { alike with bindings := alike.bindings.trans removed.symm }

theorem Alike.activeRequests (epoch : Nat) :
    alone.activeRequests epoch = (all.activeRequests epoch).filter request.sameGroup := by
  have only := Request.filter_key (·.group .routeBase) all.requests alike.separate request alike.member
  unfold RefreshDriver.activeRequests windowEnd
  rw [alike.requests, alike.config, ← only, List.filter_filter, List.filter_filter]
  exact List.filter_congr fun other _ => Bool.and_comm _ _

theorem Alike.build (snapshot : Snapshot) (epoch : Nat) (generation : Generation)
    (built : all.build snapshot (all.activeRequests epoch) = .ok generation) :
    ∃ own, alone.build snapshot (alone.activeRequests epoch) = .ok own ∧
      own.bierTables = generation.bierTables ∧
      own.bindings = generation.bindings.filter (·.group = request.group .routeBase) ∧
      (all.config.forwarding = .bier →
        own.routing = alone.routing ∧ generation.routing = all.routing) := by
  cases mode : all.config.forwarding with
  | routeTable =>
    have mode' := mode
    rw [← alike.config] at mode'
    rw [all.build_routeTable snapshot _ mode] at built
    rw [alone.build_routeTable snapshot _ mode', alike.activeRequests, alike.roles, alike.tables]
    obtain ⟨own, done, tables, bindings⟩ := Generation.exists_foldlM_sameGroup all.roles snapshot
      request _ _ generation _ built rfl rfl rfl
    exact ⟨own, done, tables, bindings, nofun⟩
  | bier =>
    have mode' := mode
    rw [← alike.config] at mode'
    rw [all.build_bier snapshot _ mode] at built
    rw [alone.build_bier snapshot _ mode', alike.positions]
    split at built
    · cases built
    · cases built
      exact ⟨_, rfl, rfl, rfl, fun _ => ⟨rfl, rfl⟩⟩

variable [SnapshotSource σ]

theorem Alike.decides_of_refresh (epoch : Nat) (outcome outcome' : RefreshOutcome)
    (timers timers' : List TimerRequest) (later last : RefreshDriver σ)
    (routed : all.config.forwarding = .routeTable)
    (refreshed : all.refresh epoch = (.ok (outcome, timers), later))
    (refreshed' : alone.refresh epoch = (.ok (outcome', timers'), last)) (node : NodeId)
    (origin : Origin) :
    last.routing.arbitrate node request.source origin (request.group .routeBase) =
      later.routing.arbitrate node request.source origin (request.group .routeBase) := by
  obtain ⟨snapshot, load, _, decides⟩ := RefreshDriver.decides_of_refresh all later epoch outcome
    timers routed alike.separate refreshed
  obtain ⟨snapshot', load', _, decides'⟩ := RefreshDriver.decides_of_refresh alone last epoch outcome'
    timers' (by rw [alike.config, routed]) (by simp [alike.requests]) refreshed'
  rw [alike.source, load, Except.ok.injEq] at load'
  subst load'
  obtain ⟨active, inactive, outside⟩ := decides request alike.member
  obtain ⟨active', inactive', outside'⟩ := decides' request (by simp [alike.requests])
  have window : alone.windowEnd epoch = all.windowEnd epoch := by
    unfold windowEnd
    rw [alike.config]
  rw [window] at active' inactive'
  rw [alike.roles] at active' inactive' outside'
  by_cases inside : node < all.roles.nodeCount
  · cases current : request.activeDuring epoch (all.windowEnd epoch) with
    | true =>
      obtain ⟨tree, built, _, found⟩ := active current
      obtain ⟨tree', built', _, found'⟩ := active' current
      rw [built, Except.ok.injEq] at built'
      subst built'
      rw [found node inside origin, found' node inside origin]
    | false => rw [inactive current node inside origin, inactive' current node inside origin]
  · rw [outside node inside origin, outside' node inside origin]

omit alike [SnapshotSource σ] in
theorem filter_timers (stale : List LinkBinding) (next : Option Nat) :
    (all.timers stale next).filter (·.timer.concerns request) =
      all.timers (stale.filter (·.group = request.group .routeBase)) next := by
  unfold timers
  rw [List.filter_append, List.filter_map]
  congr 1
  cases next <;> rfl

/-- Where a refresh for all requests succeeds, a refresh for the one alone does. It asks for the same
timers, but for the removals of other bindings. -/
theorem Alike.refresh (epoch : Nat) (outcome : RefreshOutcome) (timers : List TimerRequest)
    (later : RefreshDriver σ) (refreshed : all.refresh epoch = (.ok (outcome, timers), later)) :
    ∃ outcome' last,
      alone.refresh epoch = (.ok (outcome', timers.filter (·.timer.concerns request)), last) ∧
      Alike request later last := by
  cases all.ends_of_refresh_eq later epoch _ refreshed with
  | built snapshot source generation follows load build outcome timers later install =>
    cases install
    obtain ⟨own, built, tables, added, kept⟩ := alike.build request all alone snapshot epoch _ build
    have follows' : alone.follows epoch = .ok () := by
      unfold RefreshDriver.follows at follows ⊢
      rwa [alike.lastEpoch]
    have load' : SnapshotSource.load alone.source epoch = (.ok snapshot, source) := by
      rw [alike.source, load]
    have refreshed' := alone.refresh_of_build epoch snapshot source own follows' load' built
    have bindings : (alone.bindings.beginGeneration.bindAll own.bindings).1 =
        (all.bindings.beginGeneration.bindAll generation.bindings).1.ofGroup
          (request.group .routeBase) := by
      rw [LinkBindings.ofGroup_bindAll, alike.bindings, added]
      rfl
    have asked : ((alone.loaded source).install epoch snapshot
          (alone.activeRequests epoch).length own).2.1 =
        ((all.loaded source).install epoch snapshot (all.activeRequests epoch).length
          generation).2.1.filter (·.timer.concerns request) := by
      dsimp only [install, loaded]
      rw [filter_timers, bindings, LinkBindings.newlyStale_ofGroup]
      unfold RefreshDriver.timers nextEpoch?
      rw [alike.config]
    dsimp only at refreshed'
    rw [asked] at refreshed'
    refine ⟨_, _, refreshed', ?_⟩
    exact {
      member := alike.member
      separate := alike.separate
      requests := alike.requests
      config := alike.config
      source := rfl
      roles := alike.roles
      positions := alike.positions
      tables
      snapshot := rfl
      lastEpoch := rfl
      bindings
      decides := fun node origin => by
        cases mode : all.config.forwarding with
        | routeTable =>
          exact alike.decides_of_refresh request all alone epoch _ _ _ _ _ _ mode refreshed
            refreshed' node origin
        | bier =>
          obtain ⟨mine, theirs⟩ := kept mode
          dsimp only [install, loaded]
          rw [mine, theirs]
          exact alike.decides node origin }

end
end RefreshDriver
end Multicast
