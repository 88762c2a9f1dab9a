import Multicast.Unicast.Source

/-!
Sources read in order. A source is read at the epochs `0, interval, 2 * interval, ...`, and what it
yields at one of them may depend on the epochs before. A plan is a source that does not change.
-/

namespace Multicast
namespace SnapshotSource
variable {σ : Type} [SnapshotSource σ]

def after (source : σ) (interval : Nat) : (count : Nat) → σ
  | 0 => source
  | count + 1 => (load (after source interval count) (count * interval)).2

def afterAll (source : σ) (epochs : List Nat) : σ :=
  epochs.foldl (fun source epoch => (load source epoch).2) source

theorem afterAll_range (source : σ) (interval count : Nat) :
    afterAll source ((List.range count).map (· * interval)) = after source interval count := by
  induction count with
  | zero => rfl
  | succ count ih =>
    unfold afterAll at ih ⊢
    rw [List.range_succ, List.map_append, List.foldl_append, ih]
    rfl

def yield (source : σ) (interval index : Nat) : Except SnapshotError Snapshot :=
  (load (after source interval index) (index * interval)).1

end SnapshotSource

/-- What is loaded for each epoch, whatever was loaded before. -/
structure SnapshotPlan where
  outcome : Nat → Except SnapshotError Snapshot

instance : SnapshotSource SnapshotPlan := ⟨fun plan epoch => (plan.outcome epoch, plan)⟩

/-- Two ways lead from node 0 to node 3, one through node 1 and one through node 2, and packets take
the one through the given node. -/
def Snapshot.diamond (epoch : Nat) (middle : NodeId) : Snapshot :=
  { (((Snapshot.empty epoch 4).addLink 0 1 1 1).addLink 0 2 2 1 |>.addLink 1 2 3 1).addLink 2 2 3 2 with
    nextHops := (((NextHops.empty.set 0 3 [middle]).set 0 1 [1]).set 1 3 [3]).set 2 3 [3] }

def SnapshotPlan.diamond (change : Nat) : SnapshotPlan :=
  ⟨fun epoch => .ok (.diamond epoch (if epoch < change then 1 else 2))⟩

end Multicast
