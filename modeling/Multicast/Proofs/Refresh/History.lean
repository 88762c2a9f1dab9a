import Multicast.Refresh.Driver
import Multicast.Proofs.Unicast.Sequence

/-!
Histories of a driver. A refresh ends in one of four ways, and only the last of them puts a new
generation in place. What a driver was started with stays the same through every history of
refreshes and removals of link bindings.
-/

namespace Multicast
namespace RefreshDriver
variable {σ : Type}

theorem build_routeTable (driver : RefreshDriver σ) (snapshot : Snapshot) (active : List Request)
    (routed : driver.config.forwarding = .routeTable) :
    driver.build snapshot active = active.foldlM (Generation.addTree driver.roles snapshot)
      ⟨.empty driver.roles.nodeCount, driver.bierTables, 0, []⟩ := by
  unfold build
  rw [routed]

theorem build_bier (driver : RefreshDriver σ) (snapshot : Snapshot) (active : List Request)
    (bier : driver.config.forwarding = .bier) :
    driver.build snapshot active =
      match BierTable.buildAll snapshot driver.positions with
      | .error error => .error (.bier error)
      | .ok tables => .ok ⟨driver.routing, tables, total (tables.map BierTable.size), []⟩ := by
  unfold build
  rewrite [bier]
  cases BierTable.buildAll snapshot driver.positions with
  | error => rfl
  | ok => rfl

def setting (driver : RefreshDriver σ) : RefreshConfig × NodeRoles × List Request × BitPositions :=
  (driver.config, driver.roles, driver.requests, driver.positions)

/-- A driver that has loaded a snapshot and not built from it yet. -/
def loaded (driver : RefreshDriver σ) (source : σ) : RefreshDriver σ :=
  { driver with source, state := .idle }

inductive Ends [SnapshotSource σ] (driver : RefreshDriver σ) (epoch : Nat) :
    Except RefreshError (RefreshOutcome × List TimerRequest) → RefreshDriver σ → Prop where
  | early (error : RefreshError) (follows : driver.follows epoch = .error error) :
    Ends driver epoch (.error error) driver
  | unloaded (error : SnapshotError) (source : σ) (follows : driver.follows epoch = .ok ())
    (load : SnapshotSource.load driver.source epoch = (.error error, source)) :
    Ends driver epoch (.error (.snapshot error)) (driver.loaded source)
  | unbuilt (error : RefreshError) (snapshot : Snapshot) (source : σ)
    (follows : driver.follows epoch = .ok ())
    (load : SnapshotSource.load driver.source epoch = (.ok snapshot, source))
    (build : driver.build snapshot (driver.activeRequests epoch) = .error error) :
    Ends driver epoch (.error error) (driver.loaded source)
  | built (snapshot : Snapshot) (source : σ) (generation : Generation)
    (follows : driver.follows epoch = .ok ())
    (load : SnapshotSource.load driver.source epoch = (.ok snapshot, source))
    (build : driver.build snapshot (driver.activeRequests epoch) = .ok generation)
    (outcome : RefreshOutcome) (timers : List TimerRequest) (later : RefreshDriver σ)
    (install : (driver.loaded source).install epoch snapshot (driver.activeRequests epoch).length
      generation = (outcome, timers, later)) :
    Ends driver epoch (.ok (outcome, timers)) later

theorem ends_of_refresh_eq [SnapshotSource σ] (driver later : RefreshDriver σ) (epoch : Nat)
    (result : Except RefreshError (RefreshOutcome × List TimerRequest))
    (refreshed : driver.refresh epoch = (result, later)) : driver.Ends epoch result later := by
  unfold refresh at refreshed
  cases follows : driver.follows epoch with
  | error error =>
    simp only [follows] at refreshed
    cases refreshed
    exact .early error follows
  | ok =>
    rcases load : SnapshotSource.load driver.source epoch with ⟨error | snapshot, source⟩
    · simp only [follows, load] at refreshed
      cases refreshed
      exact .unloaded error source follows load
    · cases build : driver.build snapshot (driver.activeRequests epoch) with
      | error error =>
        simp only [follows, load, build] at refreshed
        cases refreshed
        exact .unbuilt error snapshot source follows load build
      | ok generation =>
        simp only [follows, load, build] at refreshed
        cases refreshed
        exact .built snapshot source generation follows load build _ _ _ rfl

/-- A refresh that fails changes nothing but the source and the state. -/
theorem exists_of_refresh_error [SnapshotSource σ] (driver later : RefreshDriver σ) (epoch : Nat)
    (error : RefreshError) (failed : driver.refresh epoch = (.error error, later)) :
    ∃ source state, later = { driver with source, state } := by
  cases driver.ends_of_refresh_eq later epoch _ failed with
  | early => exact ⟨driver.source, driver.state, rfl⟩
  | unloaded _ source => exact ⟨source, .idle, rfl⟩
  | unbuilt _ _ source => exact ⟨source, .idle, rfl⟩

theorem refresh_of_build [SnapshotSource σ] (driver : RefreshDriver σ) (epoch : Nat)
    (snapshot : Snapshot) (source : σ) (generation : Generation)
    (follows : driver.follows epoch = .ok ())
    (load : SnapshotSource.load driver.source epoch = (.ok snapshot, source))
    (build : driver.build snapshot (driver.activeRequests epoch) = .ok generation) :
    driver.refresh epoch =
      let installed := (driver.loaded source).install epoch snapshot
        (driver.activeRequests epoch).length generation
      (.ok (installed.1, installed.2.1), installed.2.2) := by
  simp only [refresh, follows, load, build]
  rfl

theorem Ends.refresh_eq [SnapshotSource σ] (driver later : RefreshDriver σ) (epoch : Nat)
    (result : Except RefreshError (RefreshOutcome × List TimerRequest))
    (ends : driver.Ends epoch result later) : driver.refresh epoch = (result, later) := by
  cases ends with
  | early error follows => simp only [refresh, follows]
  | unloaded error source follows load =>
    simp only [refresh, follows, load]
    rfl
  | unbuilt error snapshot source follows load build =>
    simp only [refresh, follows, load, build]
    rfl
  | built snapshot source generation follows load build outcome timers later install =>
    rw [driver.refresh_of_build epoch snapshot source generation follows load build, install]

theorem ends_refresh [SnapshotSource σ] (driver : RefreshDriver σ) (epoch : Nat) :
    driver.Ends epoch (driver.refresh epoch).1 (driver.refresh epoch).2 :=
  driver.ends_of_refresh_eq _ epoch _ rfl

theorem setting_refresh [SnapshotSource σ] (driver : RefreshDriver σ) (epoch : Nat) :
    (driver.refresh epoch).2.setting = driver.setting := by
  have ways := driver.ends_refresh epoch
  generalize (driver.refresh epoch).1 = result at ways
  generalize (driver.refresh epoch).2 = later at ways ⊢
  cases ways with
  | early => rfl
  | unloaded => rfl
  | unbuilt => rfl
  | built _ _ _ _ _ _ _ _ _ install => cases install; rfl

theorem source_refresh [SnapshotSource σ] (driver : RefreshDriver σ) (epoch : Nat)
    (follows : driver.follows epoch = .ok ()) :
    (driver.refresh epoch).2.source = (SnapshotSource.load driver.source epoch).2 := by
  have ways := driver.ends_refresh epoch
  generalize (driver.refresh epoch).1 = result at ways
  generalize (driver.refresh epoch).2 = later at ways ⊢
  cases ways with
  | early error late => exact absurd (follows.symm.trans late) (by simp)
  | unloaded _ _ _ load => rw [load]; rfl
  | unbuilt _ _ _ _ load => rw [load]; rfl
  | built _ _ _ _ load _ _ _ _ install => cases install; rw [load]; rfl

/-- The driver is reached from the first one by refreshes of the given epochs, in order, whether they
succeed or fail, with removals of link bindings at any time. -/
inductive Reaches [SnapshotSource σ] (first : RefreshDriver σ) :
    List Nat → RefreshDriver σ → Prop where
  | start : Reaches first [] first
  | refresh (epochs : List Nat) (driver : RefreshDriver σ) (epoch : Nat)
    (earlier : Reaches first epochs driver) :
    Reaches first (epochs ++ [epoch]) (driver.refresh epoch).2
  | unbind (epochs : List Nat) (driver : RefreshDriver σ) (binding : LinkBinding)
    (earlier : Reaches first epochs driver) : Reaches first epochs (driver.unbind binding)

theorem setting_of_reaches [SnapshotSource σ] (first driver : RefreshDriver σ) (epochs : List Nat)
    (reached : first.Reaches epochs driver) : driver.setting = first.setting := by
  induction reached with
  | start => rfl
  | refresh epochs driver epoch _ ih => exact (driver.setting_refresh epoch).trans ih
  | unbind epochs driver binding _ ih => exact ih

theorem lastEpoch_refresh [SnapshotSource σ] (driver : RefreshDriver σ) (epoch last : Nat)
    (found : (driver.refresh epoch).2.lastEpoch = some last) :
    last = epoch ∨ driver.lastEpoch = some last := by
  have ways := driver.ends_refresh epoch
  generalize (driver.refresh epoch).1 = result at ways
  generalize (driver.refresh epoch).2 = later at ways found
  cases ways with
  | early => exact .inr found
  | unloaded => exact .inr found
  | unbuilt => exact .inr found
  | built _ _ _ _ _ _ _ _ _ install =>
    cases install
    exact .inl (Option.some.inj found).symm

theorem lastEpoch_of_reaches [SnapshotSource σ] (first driver : RefreshDriver σ) (epochs : List Nat)
    (fresh : first.lastEpoch = none) (reached : first.Reaches epochs driver) (last : Nat)
    (found : driver.lastEpoch = some last) : last ∈ epochs := by
  induction reached with
  | start => simp [fresh] at found
  | refresh epochs driver epoch _ ih =>
    rcases driver.lastEpoch_refresh epoch last found with rfl | earlier
    · exact List.mem_append_right _ List.mem_cons_self
    · exact List.mem_append_left _ (ih earlier)
  | unbind epochs driver binding _ ih => exact ih found

theorem follows_of_forall_lt [SnapshotSource σ] (first driver : RefreshDriver σ) (epochs : List Nat)
    (epoch : Nat) (fresh : first.lastEpoch = none) (reached : first.Reaches epochs driver)
    (later : ∀ earlier ∈ epochs, earlier < epoch) : driver.follows epoch = .ok () := by
  unfold follows
  cases found : driver.lastEpoch with
  | none => rfl
  | some last =>
    have before := later last (lastEpoch_of_reaches first driver epochs fresh reached last found)
    exact if_neg (Nat.not_le_of_lt before)

theorem source_of_reaches [SnapshotSource σ] (first driver : RefreshDriver σ) (epochs : List Nat)
    (fresh : first.lastEpoch = none) (reached : first.Reaches epochs driver)
    (increasing : epochs.Pairwise (· < ·)) :
    driver.source = SnapshotSource.afterAll first.source epochs := by
  induction reached with
  | start => rfl
  | refresh epochs driver epoch earlier ih =>
    obtain ⟨before, _, between⟩ := List.pairwise_append.1 increasing
    have follows := follows_of_forall_lt first driver epochs epoch fresh earlier
      fun earlier member => between earlier member epoch List.mem_cons_self
    rw [driver.source_refresh epoch follows, ih before]
    unfold SnapshotSource.afterAll
    rw [List.foldl_append]
    rfl
  | unbind epochs driver binding _ ih => exact ih increasing

/-- A driver over a network whose way from node 0 to node 3 changes at the second epoch. -/
def diamondDriver (requests : List Request) : RefreshDriver SnapshotPlan :=
  start { interval := 10, finish := 30 } (.diamond 10) (.terrestrial 4) requests .empty

end RefreshDriver
end Multicast
