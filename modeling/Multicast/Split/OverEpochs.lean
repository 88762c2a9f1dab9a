import Multicast.Split.AtSource
import Multicast.Unicast.Source

/-!
Splitting over epochs. The grouping at the source can change where a new epoch begins. A request
still running there is cut in two at that instant, and each slice is split with the state it is
routed with. Requests stay open until the epochs have passed them.
-/

namespace Multicast

inductive SplitError where
  | snapshot (epoch : Nat) (error : SnapshotError)
  | tree (error : TreeError)
deriving DecidableEq

def SplitError.message : SplitError → String
  | .snapshot epoch error => s!"failed to load unicast state of epoch {epoch} ns: {error.message}"
  | .tree error => error.message

namespace Request

def before (request : Request) (instant : Nat) : Request :=
  { request with duration := instant - request.start }

def since (request : Request) (instant : Nat) : Request :=
  { request with start := instant, duration := request.finish - instant }

end Request

/-- What happens to open requests where an epoch begins. -/
structure EpochCut where
  /-- Parts that are complete. -/
  closed : List Request
  /-- Requests that go on or have not started. -/
  stillOpen : List Request

namespace EpochCut

def ofRequest (previous current : Snapshot) (epoch : Nat) (request : Request) :
    Except TreeError EpochCut :=
  if epoch ≤ request.start then .ok ⟨[], [request]⟩
  else if request.finish ≤ epoch then
    (request.splitAtSource previous).map fun parts => ⟨parts, []⟩
  else do
    let groups ← request.sourceGroups previous
    let changed ← request.sourceGroups current
    if groups = changed then return ⟨[], [request]⟩
    else return ⟨← (request.before epoch).splitAtSource previous, [request.since epoch]⟩

def ofRequests (previous current : Snapshot) (epoch : Nat) (requests : List Request) :
    Except TreeError EpochCut := do
  let cuts ← requests.mapM (ofRequest previous current epoch)
  return ⟨cuts.flatMap closed, cuts.flatMap stillOpen⟩

end EpochCut

section
variable {σ : Type} [SnapshotSource σ]

def loadEpoch (source : σ) (epoch : Nat) : Except SplitError (Snapshot × σ) :=
  match SnapshotSource.load source epoch with
  | (.error error, _) => .error (.snapshot epoch error)
  | (.ok snapshot, later) => .ok (snapshot, later)

def closeAll (previous : Snapshot) (requests : List Request) : Except SplitError (List Request) :=
  match requests.mapM (·.splitAtSource previous) with
  | .error error => .error (.tree error)
  | .ok parts => .ok parts.flatten

/-- The parts of open requests over the given number of further epochs, the first of which begins at
the given instant. -/
def partsOver (interval : Nat) : (epochs : Nat) → (epoch : Nat) → σ → Snapshot → List Request →
    Except SplitError (List Request)
  | 0, _, _, previous, requests => closeAll previous requests
  | epochs + 1, epoch, source, previous, requests =>
    match loadEpoch source epoch with
    | .error error => .error error
    | .ok (current, later) =>
      match EpochCut.ofRequests previous current epoch requests with
      | .error error => .error (.tree error)
      | .ok cut =>
        match partsOver interval epochs (epoch + interval) later current cut.stillOpen with
        | .error error => .error error
        | .ok parts => .ok (cut.closed ++ parts)

def laterEpochs (interval finish : Nat) : Nat := if interval = 0 then 0 else (finish - 1) / interval

def splitScheduleOver (requests : List Request) (source : σ) (interval finish : Nat) :
    Except SplitError (List Request) := do
  let (first, later) ← loadEpoch source 0
  let parts ← partsOver interval (laterEpochs interval finish) interval later first requests
  return renumber parts

end
end Multicast
