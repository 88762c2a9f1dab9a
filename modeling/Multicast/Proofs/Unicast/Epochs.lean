import Multicast.Proofs.Unicast.Directory

/-!
Epochs of snapshots. A source is faithful if what it yields for an epoch says that it is of that
epoch. Main statements: series in memory and directories of state files are faithful.
-/

namespace Multicast
open Std

/-- A snapshot that the source yields for an epoch is of that epoch. -/
def SnapshotSource.Faithful (σ : Type) [SnapshotSource σ] : Prop :=
  ∀ (source later : σ) (epoch : Nat) (snapshot : Snapshot),
    load source epoch = (.ok snapshot, later) → snapshot.epoch = epoch

theorem SnapshotSeries.faithful : SnapshotSource.Faithful SnapshotSeries := by
  intro series later epoch snapshot loaded
  unfold SnapshotSource.load instSnapshotSource at loaded
  dsimp only at loaded
  split at loaded
  · cases loaded
  · cases loaded
    rfl

theorem StateDirectory.faithful : SnapshotSource.Faithful StateDirectory := by
  intro directory later epoch snapshot loaded
  unfold SnapshotSource.load instSnapshotSource StateDirectory.load at loaded
  dsimp only at loaded
  split at loaded
  · cases loaded
  · cases loaded
  · cases loaded
  · split at loaded
    · cases loaded
    · rename_i applied
      cases loaded
      obtain ⟨records, _, _, rfl⟩ := Snapshot.exists_records_of_applyFile _ _ _ _ applied
      rw [Snapshot.replay_epoch, base_epoch]

end Multicast
