import Multicast.Proofs.Tree.Chains
import Multicast.Proofs.Unicast.Endless

/-!
Destinations that no chain reaches. Main statement: the smallest destination that the chain from the
source does not reach decides the error of a tree, which is a routing loop exactly if that chain goes on
forever; chains that arrive are walked to their ends.
-/

namespace Multicast
open Std

/-- A destination of a request that its chain does not reach, while the chains to all smaller ones
arrive. -/
structure Request.FirstLost (request : Request) (snapshot : Snapshot) (destination : NodeId) :
    Prop where
  listed : destination ∈ request.destinations
  lost : ¬∃ hops, snapshot.Chain destination request.source hops
  earlier : ∀ smaller ∈ request.destinations, smaller < destination →
    ∃ hops, snapshot.Chain smaller request.source hops

namespace Tree
section
variable (request : Request) (snapshot : Snapshot)

theorem exists_firstLost (destination : NodeId) (listed : destination ∈ request.destinations)
    (lost : ¬∃ hops, snapshot.Chain destination request.source hops) :
    ∃ first, request.FirstLost snapshot first := by
  induction destination using Nat.strong_induction_on with
  | _ destination ih =>
    by_cases earlier : ∀ smaller ∈ request.destinations, smaller < destination →
        ∃ hops, snapshot.Chain smaller request.source hops
    · exact ⟨destination, listed, lost, earlier⟩
    · push Not at earlier
      obtain ⟨smaller, known, less, unreached⟩ := earlier
      exact ih smaller less known fun ⟨hops, chain⟩ => unreached hops chain

theorem pathTo_of_chain (destination : NodeId) (hops : List Hop)
    (chain : snapshot.Chain destination request.source hops) :
    pathTo request snapshot destination = .ok hops :=
  (pathTo_eq_ok ..).2 ((snapshot.path_eq_ok_iff ..).2 chain)

theorem build_of_chains (inhabited : ∃ destination, destination ∈ request.destinations)
    (away : request.source ∉ request.destinations)
    (arrive : ∀ destination ∈ request.destinations,
      ∃ hops, snapshot.Chain destination request.source hops) :
    (∃ tree, build request snapshot = .ok tree) ∨
      ∃ count, build request snapshot = .error (.severalEgresses request.id request.source count) := by
  rw [build_of_paths _ _ ((NodeSet.isEmpty_eq_false_iff _).2 inhabited) away]
  obtain ⟨walked, walks⟩ : ∃ walked, paths request snapshot = .ok walked := by
    refine (Traversal.exists_mapM_iff ..).2 fun destination listed => ?_
    obtain ⟨hops, chain⟩ := arrive destination (ExtTreeSet.mem_toList.1 listed)
    exact ⟨hops, pathTo_of_chain request snapshot destination hops chain⟩
  rw [walks]
  dsimp only
  split
  · exact .inl ⟨_, rfl⟩
  · exact .inr ⟨_, rfl⟩

variable (destination : NodeId) (first : request.FirstLost snapshot destination)
  (away : request.source ∉ request.destinations)
include first away

/-- The first chain that does not arrive decides the error of the tree. -/
theorem build_of_firstLost (error : TreeError)
    (failed : pathTo request snapshot destination = .error error) :
    build request snapshot = .error error := by
  rw [build_of_paths _ _ ((NodeSet.isEmpty_eq_false_iff _).2 ⟨destination, first.listed⟩) away]
  have ascending : request.destinations.toList.Pairwise (· < ·) :=
    ExtTreeSet.ordered_toList.imp fun before => Nat.compare_eq_lt.1 before
  obtain ⟨before, after, parts⟩ := List.append_of_mem (ExtTreeSet.mem_toList.2 first.listed)
  have walks : paths request snapshot = .error error := by
    unfold paths
    rw [parts] at ascending ⊢
    refine Traversal.mapM_of_first_error _ _ _ _ _ (fun smaller inside => ?_) failed
    have less := (List.pairwise_append.1 ascending).2.2 smaller inside destination List.mem_cons_self
    have listed : smaller ∈ request.destinations := by
      rw [← ExtTreeSet.mem_toList, parts]
      exact List.mem_append_left _ inside
    obtain ⟨hops, chain⟩ := first.earlier smaller listed less
    exact ⟨hops, pathTo_of_chain request snapshot smaller hops chain⟩
  rw [walks]

variable (positive : 0 < snapshot.nodeCount)
include positive

theorem build_of_endless (endless : snapshot.Endless destination request.source) :
    build request snapshot =
      .error (.routingLoop request.id destination snapshot.nodeCount) := by
  apply build_of_firstLost request snapshot destination first away
  unfold pathTo
  rw [(snapshot.path_eq_loop_iff _ _ positive _).2 ⟨rfl, endless⟩]

theorem build_of_stranded (error : UnicastError)
    (stranded : snapshot.Stranded destination request.source error) :
    build request snapshot = .error (.unicast request.id error) := by
  apply build_of_firstLost request snapshot destination first away
  unfold pathTo
  rw [(snapshot.path_eq_unresolved_iff _ _ positive _).2 stranded]

theorem build_of_lost :
    (snapshot.Endless destination request.source ∧ build request snapshot =
        .error (.routingLoop request.id destination snapshot.nodeCount)) ∨
      ∃ error, snapshot.Stranded destination request.source error ∧
        build request snapshot = .error (.unicast request.id error) := by
  rcases snapshot.stranded_or_endless request.source destination positive first.lost with
    ⟨error, stranded⟩ | endless
  · exact .inr ⟨error, stranded,
      build_of_stranded request snapshot destination first away positive error stranded⟩
  · exact .inl ⟨endless,
      build_of_endless request snapshot destination first away positive endless⟩

end

section
variable (request : Request) (snapshot : Snapshot) (positive : 0 < snapshot.nodeCount)
  (away : request.source ∉ request.destinations)
include positive away

theorem chain_of_severalEgresses (id : RequestId) (node : NodeId) (count : Nat)
    (several : build request snapshot = .error (.severalEgresses id node count))
    (destination : NodeId) (listed : destination ∈ request.destinations) :
    ∃ hops, snapshot.Chain destination request.source hops := by
  by_contra lost
  obtain ⟨least, first⟩ := exists_firstLost request snapshot destination listed lost
  rcases build_of_lost request snapshot least first away positive with
    ⟨_, built⟩ | ⟨error, _, built⟩
  · cases several.symm.trans built
  · cases several.symm.trans built

variable (inhabited : ∃ destination, destination ∈ request.destinations)
include inhabited

theorem ne_routingLoop_of_chain (destination : NodeId) (hops : List Hop)
    (chain : snapshot.Chain destination request.source hops) (id : RequestId) (count : Nat) :
    build request snapshot ≠ .error (.routingLoop id destination count) := by
  intro loop
  by_cases arrive : ∀ destination ∈ request.destinations,
      ∃ hops, snapshot.Chain destination request.source hops
  · rcases build_of_chains request snapshot inhabited away arrive with
      ⟨tree, built⟩ | ⟨egresses, built⟩
    · cases loop.symm.trans built
    · cases loop.symm.trans built
  · push Not at arrive
    obtain ⟨other, listed, lost⟩ := arrive
    obtain ⟨least, first⟩ := exists_firstLost request snapshot other listed
      fun ⟨hops, chain⟩ => lost hops chain
    rcases build_of_lost request snapshot least first away positive with
      ⟨_, built⟩ | ⟨error, _, built⟩
    · cases loop.symm.trans built
      exact first.lost ⟨hops, chain⟩
    · cases loop.symm.trans built

/-- Loops are found exactly. The first destination that its chain does not reach is reported as a routing
loop if and only if that chain has a next hop at every step and goes on forever, and else with the error
of the node where the chain ends. A chain that arrives is walked to its end, however long it is, and
interfaces are only counted if all chains arrive. -/
theorem build_finds_loops :
    (∀ destination, request.FirstLost snapshot destination →
      (build request snapshot =
          .error (.routingLoop request.id destination snapshot.nodeCount) ↔
        snapshot.Endless destination request.source) ∧
      (¬snapshot.Endless destination request.source →
        ∃ error, snapshot.Stranded destination request.source error ∧
          build request snapshot = .error (.unicast request.id error))) ∧
    (∀ destination hops, request.Chain snapshot destination hops →
      pathTo request snapshot destination = .ok hops ∧
        ∀ id count, build request snapshot ≠ .error (.routingLoop id destination count)) ∧
    ∀ id node count, build request snapshot = .error (.severalEgresses id node count) →
      ∀ destination ∈ request.destinations,
        ∃ hops, snapshot.Chain destination request.source hops := by
  refine ⟨fun destination first => ⟨⟨fun loop => ?_, ?_⟩, fun ends => ?_⟩, ?_, ?_⟩
  · rcases build_of_lost request snapshot destination first away positive with
      ⟨endless, _⟩ | ⟨error, _, built⟩
    · exact endless
    · cases loop.symm.trans built
  · exact build_of_endless request snapshot destination first away positive
  · exact (build_of_lost request snapshot destination first away positive).resolve_left
      fun endless => ends endless.1
  · rintro destination hops ⟨_, chain⟩
    exact ⟨pathTo_of_chain request snapshot destination hops chain,
      ne_routingLoop_of_chain request snapshot positive away inhabited destination hops chain⟩
  · exact chain_of_severalEgresses request snapshot positive away

end

theorem build_finds_loops_eddy :
    0 < Snapshot.eddy.nodeCount ∧ diamondSchedule[0].source ∉ diamondSchedule[0].destinations ∧
      diamondSchedule[0].FirstLost .eddy 3 ∧ Snapshot.eddy.Endless 3 0 ∧
      build diamondSchedule[0] .eddy = .error (.routingLoop 4 3 4) := by
  have positive : 0 < Snapshot.eddy.nodeCount := by decide
  have away : diamondSchedule[0].source ∉ diamondSchedule[0].destinations := by decide +kernel
  have listed : 3 ∈ diamondSchedule[0].destinations := by decide +kernel
  have first : diamondSchedule[0].FirstLost .eddy 3 := by
    refine ⟨listed, fun ⟨hops, chain⟩ => ?_, fun smaller known less => ?_⟩
    · exact Snapshot.not_endless_of_chain _ 3 0 hops chain Snapshot.endless_eddy
    · have single : ∀ smaller < 3, smaller ∈ diamondSchedule[0].destinations → smaller = 1 := by
        decide +kernel
      rw [single smaller less known]
      exact ⟨[⟨0, 1, 1, 1⟩], (Snapshot.path_eq_ok_iff ..).1 (by decide +kernel)⟩
  have found := build_finds_loops diamondSchedule[0] .eddy positive away ⟨3, listed⟩
  exact ⟨positive, away, first, Snapshot.endless_eddy, ((found.1 3 first).1).2 Snapshot.endless_eddy⟩

end Tree
end Multicast
