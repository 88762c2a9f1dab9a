import Multicast.Proofs.Bier.Entries
import Multicast.Proofs.Refresh.Failure
import Multicast.Proofs.Refresh.Network
import Multicast.Proofs.Unicast.Directory

/-!
Drivers of a network of known size. A source that only yields snapshots of that size gives trees and
tables that stay inside it. Main statements: whatever a refresh puts in place stays inside the network,
and a refresh that comes in time only fails for want of a snapshot or of a tree.
-/

namespace Multicast
open Std

namespace Tree

theorem lt_nodeCount_of_mem_hops (request : Request) (snapshot : Snapshot) (tree : Tree)
    (built : build request snapshot = .ok tree) (hop : Hop) (member : hop ∈ tree.hops) :
    hop.sender < snapshot.nodeCount ∧ hop.receiver < snapshot.nodeCount := by
  obtain ⟨destination, _, hops, path, inside⟩ :=
    (mem_hops request snapshot tree built hop).1 member
  obtain ⟨next, found, same⟩ := snapshot.nextHop_of_mem destination _ _ hops path hop inside
  obtain ⟨sender, _, _, receiver, _⟩ := (snapshot.nextHop_eq_ok ..).1 found
  rw [same] at sender ⊢
  exact ⟨sender, receiver⟩

theorem lt_nodeCount_of_mem_nodes (request : Request) (snapshot : Snapshot) (tree : Tree)
    (built : build request snapshot = .ok tree) (node : NodeId) (member : node ∈ tree.nodes) :
    node < snapshot.nodeCount := by
  rcases (mem_nodes request snapshot tree built node).1 member with rfl | ⟨hop, inside, end_⟩
  · exact source_lt_nodeCount request snapshot tree built
  · obtain ⟨sender, receiver⟩ := lt_nodeCount_of_mem_hops request snapshot tree built hop inside
    rcases end_ with rfl | rfl
    · exact sender
    · exact receiver

end Tree

namespace RefreshDriver
variable {σ : Type}

/-- Whatever is in force was built for the network that the driver is for. -/
structure Whole (driver : RefreshDriver σ) : Prop where
  sized : ∀ snapshot, driver.snapshot = some snapshot → snapshot.Sized driver.roles.nodeCount
  bound : ∀ binding ∈ driver.bindings.bound, binding.receiver < driver.roles.nodeCount
  decides (routed : driver.config.forwarding = .routeTable) : ∀ request ∈ driver.requests,
    ∀ node < driver.roles.nodeCount, ∀ origin, ∃ decision,
      driver.routing.arbitrate node request.source origin (request.group .routeBase) =
          .ok decision ∧
        (decision = .noRoute ∨ ∃ snapshot tree, driver.snapshot = some snapshot ∧
          Tree.build request snapshot = .ok tree ∧ decision = tree.decisionAt node)
  tables (bier : driver.config.forwarding = .bier) : ∀ snapshot, driver.snapshot = some snapshot →
    ∀ node < driver.roles.nodeCount, ∃ table, driver.bierTable? node = some table ∧
      BierTable.Routes snapshot driver.positions node table

theorem whole_start (config : RefreshConfig) (source : σ) (roles : NodeRoles)
    (requests : List Request) (positions : BitPositions) :
    (start config source roles requests positions).Whole where
  sized _ held := by cases held
  bound binding bound := by simp [start, LinkBindings.empty] at bound
  decides _ request _ node inside origin := by
    refine ⟨.noRoute, ?_, .inl rfl⟩
    have empty : (start config source roles requests positions).routing.table? node =
        some (.empty node) := by
      exact (RoutingState.table?_empty roles.nodeCount node).trans (if_pos inside)
    unfold RoutingState.arbitrate
    rw [empty]
    rfl
  tables _ _ held := by cases held

theorem whole_unbind (driver : RefreshDriver σ) (whole : driver.Whole) (binding : LinkBinding) :
    (driver.unbind binding).Whole where
  sized := whole.sized
  decides := whole.decides
  tables := whole.tables
  bound other bound := by
    refine whole.bound other ?_
    have sheds := driver.bindings.sheds_unbind _ driver.bindings.sheds_refl binding
    rw [← ExtTreeMap.isSome_getElem?_iff_mem] at bound ⊢
    rcases sheds.bound other with same | ⟨gone, _⟩
    · rwa [← same]
    · rw [RefreshDriver.unbind, gone] at bound
      cases bound

theorem receiver_lt_of_build (driver : RefreshDriver σ) (snapshot : Snapshot)
    (requests : List Request) (generation : Generation)
    (built : driver.build snapshot requests = .ok generation) (binding : LinkBinding)
    (member : binding ∈ generation.bindings) : binding.receiver < snapshot.nodeCount := by
  cases forwarding : driver.config.forwarding with
  | routeTable =>
    rw [driver.build_routeTable snapshot _ forwarding] at built
    rcases (Generation.mem_bindings_foldlM driver.roles snapshot _ generation requests built
      binding).1 member with absent | ⟨request, _, tree, tree_, needed⟩
    · cases absent
    · obtain ⟨hop, inside, _, rfl⟩ := (tree.mem_bindings driver.roles binding).1 needed
      exact (Tree.lt_nodeCount_of_mem_hops request snapshot tree tree_ hop inside).2
  | bier =>
    rw [driver.build_bier snapshot _ forwarding] at built
    split at built
    · cases built
    · cases built
      cases member

variable [SnapshotSource σ]

section
variable (driver : RefreshDriver σ) (source : σ) (epochs : List Nat)
  (sized : SnapshotSource.Sized driver.roles.nodeCount source)
  (read : driver.source = SnapshotSource.afterAll source epochs)
  (inverse : driver.config.forwarding = .bier → driver.positions.Inverse) (epoch : Nat)
include sized read inverse

theorem whole_refresh (whole : driver.Whole)
    (separate : driver.config.forwarding = .routeTable →
      driver.requests.Pairwise Request.Separate) (later : RefreshDriver σ)
    (outcome : RefreshOutcome) (timers : List TimerRequest)
    (succeeded : driver.refresh epoch = (.ok (outcome, timers), later)) : later.Whole := by
  have decisions (routed : driver.config.forwarding = .routeTable) :=
    driver.decides_of_refresh later epoch outcome timers routed (separate routed) succeeded
  have ways := driver.ends_of_refresh_eq later epoch _ succeeded
  cases ways with
  | built snapshot after generation _ load build _ _ _ install =>
    have fits : snapshot.Sized driver.roles.nodeCount := by
      refine sized epochs epoch snapshot ?_
      rw [← read, load]
    cases install
    refine ⟨?_, fun binding bound => ?_, fun routed request listed node inside origin => ?_,
      fun bier => ?_⟩
    · rintro _ ⟨⟩
      exact fits
    · have kept := (driver.bindings.beginGeneration.bound_bindAll generation.bindings binding).1
      by_cases fresh : binding ∈ generation.bindings
      · have leads := driver.receiver_lt_of_build snapshot _ generation build binding fresh
        rwa [fits.nodeCount] at leads
      · rw [if_neg fresh] at kept
        refine whole.bound binding ?_
        rw [← ExtTreeMap.isSome_getElem?_iff_mem] at bound ⊢
        exact kept ▸ bound
    · obtain ⟨held, _, holds, decides⟩ := decisions routed
      cases holds
      obtain ⟨active, inactive, _⟩ := decides request listed
      cases live : request.activeDuring epoch (driver.windowEnd epoch) with
      | true =>
        obtain ⟨tree, built, _, decided⟩ := active live
        exact ⟨_, decided node inside origin, .inr ⟨_, tree, rfl, built, rfl⟩⟩
      | false => exact ⟨_, inactive live node inside origin, .inl rfl⟩
    · change driver.config.forwarding = .bier at bier
      rintro _ ⟨⟩ node inside
      obtain ⟨tables, all, each⟩ :=
        BierTable.exists_buildAll snapshot driver.positions (inverse bier)
      rw [driver.build_bier snapshot _ bier, all] at build
      cases build
      exact each node (by rwa [fits.nodeCount])

/-- A refresh that comes in time only fails for want of a snapshot or of a tree. -/
theorem snapshot_or_tree_of_refresh_error (follows : driver.follows epoch = .ok ())
    (later : RefreshDriver σ) (error : RefreshError)
    (failed : driver.refresh epoch = (.error error, later)) :
    (∃ fault, error = .snapshot fault) ∨
      (driver.config.forwarding = .routeTable ∧ ∃ fault, error = .tree fault) := by
  have fits (snapshot : Snapshot)
      (load : (SnapshotSource.load driver.source epoch).1 = .ok snapshot) :
      snapshot.Sized driver.roles.nodeCount :=
    sized epochs epoch snapshot (by rwa [← read])
  obtain ⟨fault, _⟩ := driver.keeps_of_refresh_error later epoch error failed
  cases fault with
  | late previous last early =>
    unfold RefreshDriver.follows at follows
    rw [last] at follows
    dsimp only at follows
    rw [if_pos early] at follows
    cases follows
  | unloaded error => exact .inl ⟨error, rfl⟩
  | unrouted snapshot error routed load fault =>
    cases fault with
    | treeless _ error => exact .inr ⟨routed, error, rfl⟩
    | outside request tree node _ built inside beyond =>
      have within := Tree.lt_nodeCount_of_mem_nodes request snapshot tree built node inside
      rw [(fits snapshot load).nodeCount] at within
      exact absurd within (Nat.not_lt_of_le beyond)
  | untabled snapshot error bier _ build =>
    obtain ⟨tables, all, _⟩ := BierTable.exists_buildAll snapshot driver.positions (inverse bier)
    rw [all] at build
    cases build

end
end RefreshDriver
end Multicast
