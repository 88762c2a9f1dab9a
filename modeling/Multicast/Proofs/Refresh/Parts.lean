import Multicast.Proofs.Refresh.History
import Multicast.Proofs.Split.FirstHops

/-!
Refreshes of a split schedule. The parts of a schedule have a tree in every window in which they are
active, unless a path does not arrive. So a driver that routes the parts with the snapshots they were
split with never has to send several copies from a source.
-/

namespace Multicast

namespace Tree

theorem pathTo_eq_error (request : Request) (snapshot : Snapshot) (destination : NodeId)
    (error : TreeError) (failed : pathTo request snapshot destination = .error error) :
    (∃ hops, error = .routingLoop request.id destination hops) ∨
      ∃ fault, error = .unicast request.id fault := by
  unfold pathTo at failed
  split at failed
  · cases failed
  · cases failed
    exact .inl ⟨_, rfl⟩
  · cases failed
    exact .inr ⟨_, rfl⟩

end Tree

namespace RefreshDriver
variable {σ : Type} [SnapshotSource σ]

omit [SnapshotSource σ] in
theorem follows_ne_tree (driver : RefreshDriver σ) (epoch : Nat) (error : TreeError) :
    driver.follows epoch ≠ .error (.tree error) := by
  unfold follows
  split
  · simp
  · split
    · simp
    · simp

theorem build_of_refresh (driver : RefreshDriver σ) (epoch : Nat) (error : TreeError)
    (routed : driver.config.forwarding = .routeTable)
    (failed : (driver.refresh epoch).1 = .error (.tree error)) :
    ∃ snapshot, (SnapshotSource.load driver.source epoch).1 = .ok snapshot ∧
      ∃ request ∈ driver.activeRequests epoch, Tree.build request snapshot = .error error := by
  have ways := driver.ends_refresh epoch
  rw [failed] at ways
  generalize (driver.refresh epoch).2 = later at ways
  cases ways with
  | early _ follows => exact absurd follows (driver.follows_ne_tree epoch error)
  | unbuilt _ snapshot source _ load build =>
    refine ⟨snapshot, by rw [load], ?_⟩
    rw [driver.build_routeTable snapshot _ routed] at build
    obtain ⟨request, active, generation, failed⟩ := Traversal.foldlM_eq_error _ _ _ _ build
    refine ⟨request, active, ?_⟩
    unfold Generation.addTree at failed
    split at failed
    · cases failed
      assumption
    · split at failed
      · cases failed
      · cases failed

/-- Where the parts of a schedule are active, they are behind one first hop. -/
theorem oneWay_of_active (requests parts : List Request) (source : σ) (interval finish index : Nat)
    (split : splitScheduleOver requests source interval finish = .ok parts)
    (inside : index ≤ laterEpochs interval finish) (part : Request) (member : part ∈ parts)
    (started : index ≠ laterEpochs interval finish → part.start < (index + 1) * interval)
    (runs : index * interval < part.finish) :
    (∃ destination, destination ∈ part.destinations) ∧ part.source ∉ part.destinations ∧
      part.OneWay (SnapshotSource.state source interval index) := by
  obtain ⟨request, _, slices, sliced, slice, cut, id, rfl⟩ :=
    mem_splitScheduleOver _ _ _ _ _ split part member
  have kept := Request.partOf_of_slices _ _ _ _ _ _ sliced slice cut
  refine ⟨kept.inhabited, kept.away, ?_⟩
  exact Request.oneWay_of_slices _ _ _ _ _ _ sliced index (Nat.zero_le _) (by omega) slice cut
    (fun other => started (by omega)) runs

theorem load_of_reaches (first driver : RefreshDriver σ) (interval index : Nat)
    (fresh : first.lastEpoch = none) (spaced : index = 0 ∨ 0 < interval)
    (reached : first.Reaches ((List.range index).map (· * interval)) driver) :
    (SnapshotSource.load driver.source (index * interval)).1 =
      SnapshotSource.yield first.source interval index := by
  have increasing : ((List.range index).map (· * interval)).Pairwise (· < ·) := by
    rcases spaced with rfl | spaced
    · exact .nil
    · rw [List.pairwise_map]
      exact List.pairwise_lt_range.imp fun before => Nat.mul_lt_mul_of_pos_right before spaced
  rw [source_of_reaches first driver _ fresh reached increasing, SnapshotSource.afterAll_range]
  rfl

/-- The run that a schedule is split for: its driver has the interval and the end of the split, or
serves all of the run with the state of the first epoch. -/
structure Serves (config : RefreshConfig) (interval finish : Nat) : Prop where
  routed : config.forwarding = .routeTable
  ends : config.finish = finish
  spaced : config.forceStatic = false → config.interval = interval
  static : config.forceStatic = true → interval = finish

section
variable (driver : RefreshDriver σ) (interval finish index : Nat)
  (serves : Serves driver.config interval finish) (part : Request)
  (active : part ∈ driver.activeRequests (index * interval))
include serves active

omit [SnapshotSource σ] in
/-- If epochs do not follow each other, only the first one of a static run has active requests. -/
theorem inside_of_active (begins : index = 0 ∨ index * interval < finish) :
    index ≤ laterEpochs interval finish ∧ (index = 0 ∨ 0 < interval) := by
  rcases Nat.eq_zero_or_pos interval with rfl | spaced
  · have first : index = 0 := by
      rcases begins with first | begins
      · exact first
      · cases fixed : driver.config.forceStatic with
        | true =>
          have := serves.static fixed
          omega
        | false =>
          have started := (List.mem_filter.1 active).2
          simp [Request.activeDuring, windowEnd, fixed, serves.spaced fixed, instantAfter] at started
    subst first
    exact ⟨Nat.zero_le _, .inl rfl⟩
  · exact ⟨(le_laterEpochs_iff interval finish index (by omega)).2 begins, .inr spaced⟩

omit [SnapshotSource σ] in
theorem window_of_active (inside : index ≤ laterEpochs interval finish) :
    (index ≠ laterEpochs interval finish → part.start < (index + 1) * interval) ∧
      index * interval < part.finish := by
  obtain ⟨_, running⟩ := List.mem_filter.1 active
  simp only [Request.activeDuring, Bool.and_eq_true, decide_eq_true_eq] at running
  refine ⟨fun other => ?_, running.2⟩
  have started := running.1
  unfold windowEnd at started
  split at started
  case isTrue fixed =>
    have single : laterEpochs interval finish = 0 := by
      rw [serves.static fixed, laterEpochs]
      split
      · rfl
      · exact Nat.div_eq_of_lt (by omega)
    omega
  case isFalse moving =>
    rw [serves.spaced (by simpa using moving)] at started
    unfold instantAfter at started
    rw [Nat.succ_mul]
    omega

end

/-- Whatever a refresh of the parts of a schedule fails with, it is not that a part has no destination,
is sent to its own source or leaves its source on several interfaces. -/
theorem refresh_parts_ne_error {τ : Type} [SnapshotSource τ] (requests parts : List Request)
    (source : σ) (interval finish : Nat)
    (split : splitScheduleOver requests source interval finish = .ok parts) (config : RefreshConfig)
    (serves : Serves config interval finish) (mirror : τ) (roles : NodeRoles)
    (positions : BitPositions) (index : Nat) (begins : index = 0 ∨ index * interval < finish)
    (same : ∀ earlier ≤ index, SnapshotSource.yield mirror interval earlier =
      SnapshotSource.yield source interval earlier) (driver : RefreshDriver τ)
    (reached : (start config mirror roles parts positions).Reaches
      ((List.range index).map (· * interval)) driver) :
    (∀ request node count, (driver.refresh (index * interval)).1 ≠
      .error (.tree (.severalEgresses request node count))) ∧
    (∀ request node, (driver.refresh (index * interval)).1 ≠
      .error (.tree (.selfDestination request node))) ∧
    ∀ request, (driver.refresh (index * interval)).1 ≠ .error (.tree (.noDestinations request)) := by
  have kept := setting_of_reaches _ _ _ reached
  simp only [setting, start, Prod.mk.injEq] at kept
  obtain ⟨rfl, rfl, rfl, rfl⟩ := kept
  have arrives (error : TreeError)
      (failed : (driver.refresh (index * interval)).1 = .error (.tree error)) :
      (∃ request destination hops, error = .routingLoop request destination hops) ∨
        ∃ request fault, error = .unicast request fault := by
    obtain ⟨snapshot, load, part, active, built⟩ :=
      driver.build_of_refresh _ error serves.routed failed
    obtain ⟨inside, spaced⟩ := driver.inside_of_active interval finish index serves part active begins
    obtain ⟨started, runs⟩ := driver.window_of_active interval finish index serves part active inside
    obtain ⟨inhabited, away, way, behind⟩ := oneWay_of_active requests driver.requests source interval
      finish index split inside part (List.mem_filter.1 active).1 started runs
    have yields := (slices_of_splitScheduleOver _ _ _ _ _ split).1 index inside
    rw [load_of_reaches _ driver interval index rfl spaced reached] at load
    have served : SnapshotSource.state source interval index = snapshot := by
      apply Except.ok.inj
      calc
        Except.ok _ = SnapshotSource.yield source interval index := yields.symm
        _ = SnapshotSource.yield mirror interval index := (same index (Nat.le_refl _)).symm
        _ = .ok snapshot := load
    rw [served] at behind
    rcases Tree.build_of_shared part snapshot way.2 inhabited away
        (Tree.sharesEgress_of_way part snapshot way behind) with
      ⟨tree, success⟩ | ⟨destination, _, error', walk, failure⟩
    · rw [success] at built
      cases built
    · obtain rfl : error' = error := Except.error.inj (failure.symm.trans built)
      rcases Tree.pathTo_eq_error part snapshot destination error' walk with
        ⟨hops, loop⟩ | ⟨fault, gap⟩
      · exact .inl ⟨_, _, hops, loop⟩
      · exact .inr ⟨_, fault, gap⟩
  refine ⟨?_, ?_, ?_⟩
  · intro request node count failed
    simpa using arrives _ failed
  · intro request node failed
    simpa using arrives _ failed
  · intro request failed
    simpa using arrives _ failed

theorem refresh_parts_ne_error_diamond :
    (((diamondDriver diamondSchedule).refresh 0).2.refresh 10).1 =
      .error (.tree (.severalEgresses 4 0 2)) ∧
      ∃ parts, splitScheduleOver diamondSchedule (.diamond 10 : SnapshotPlan) 10 30 = .ok parts ∧
        ∀ request node count, (((diamondDriver parts).refresh 0).2.refresh 10).1 ≠
          .error (.tree (.severalEgresses request node count)) := by
  refine ⟨by decide +kernel, ?_⟩
  have splits :
      (splitScheduleOver diamondSchedule (.diamond 10 : SnapshotPlan) 10 30).isOk = true := by
    decide +kernel
  cases split : splitScheduleOver diamondSchedule (.diamond 10 : SnapshotPlan) 10 30 with
  | error error =>
    rw [split] at splits
    cases splits
  | ok parts =>
    have serves : Serves { interval := 10, finish := 30 } 10 30 := ⟨rfl, rfl, fun _ => rfl, by simp⟩
    exact ⟨parts, rfl, (refresh_parts_ne_error diamondSchedule parts _ 10 30 split _ serves
      (.diamond 10 : SnapshotPlan) (.terrestrial 4) .empty 1 (.inr (by decide)) (fun _ _ => rfl) _
      (.refresh [] _ 0 .start)).1⟩

end RefreshDriver
end Multicast
