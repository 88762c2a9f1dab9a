import Multicast.Experiment.Reader
import Multicast.Experiment.Report
import Multicast.Schedule.Reader
import Multicast.Traffic.Sampler
import Multicast.Unicast.Directory

/-!
Experiments from their settings. The settings are checked, the schedule is read or generated, its
requests are split if that is asked for, and destinations get their bit positions; then the run can
start. It has a report if no event fails.
-/

namespace Multicast
open Std

structure Experiment (σ : Type) where
  config : ExperimentConfig
  /-- The schedule, after splitting. -/
  requests : List Request
  simulation : Simulation σ

namespace ExperimentConfig

def readSchedule (config : ExperimentConfig) (path : String) :
    FileContent → Except ScheduleError (List Request)
  | .missing => .error (.unopened path FileContent.missingReason)
  | .unopened reason => .error (.unopened path reason)
  | .unreadable reason => .error (.line 1 (.unreadable reason))
  | .bytes content => Schedule.read content config.roles config.finish

def requests (config : ExperimentConfig) (scheduleFile : FileContent) :
    Except ExperimentError (List Request) :=
  match config.schedule, config.generator? with
  | some path, _ => (config.readSchedule path scheduleFile).mapError .schedule
  | none, some generator => .ok (generator.sample config.roles)
  | none, none => .error (.setting .noTraffic)

def split {σ : Type} [SnapshotSource σ] (config : ExperimentConfig) (source : σ)
    (requests : List Request) : Except ExperimentError (List Request) :=
  if config.splitAtSource then
    (splitScheduleOver requests source config.epochLength config.finish).mapError .split
  else .ok requests

def assignPosition (assigned : BitPositions) (entry : NodeId × Nat) :
    Except ExperimentError BitPositions :=
  (assigned.assign entry.1 entry.2).mapError (.position entry.1)

def configuredPositions (config : ExperimentConfig) : Except ExperimentError (Option BitPositions) :=
  if config.positions.isEmpty then .ok none
  else (config.positions.foldlM assignPosition .empty).map some

def destinations (requests : List Request) : List NodeId :=
  (ExtTreeSet.ofList (requests.flatMap fun request => request.destinations.toList) : NodeSet).toList

/-- The bit positions of a run: the configured ones, or else the destinations numbered in ascending
order. Route tables need none. -/
def bitPositions (config : ExperimentConfig) (requests : List Request) :
    Except ExperimentError BitPositions :=
  match config.forwarding with
  | .routeTable => .ok .empty
  | .bier => do
    match ← config.configuredPositions with
    | some assigned => return assigned
    | none => (BitPositions.sequential (destinations requests)).mapError .numbering

end ExperimentConfig

namespace Experiment
variable {σ : Type}

def prepare [SnapshotSource σ] (config : ExperimentConfig) (source : σ)
    (scheduleFile : FileContent) : Except ExperimentError (Experiment σ) := do
  config.check.mapError .setting
  let listed ← config.requests scheduleFile
  let requests ← config.split source listed
  let positions ← config.bitPositions requests
  return ⟨config, requests,
    .start config.simulation source config.roles requests positions⟩

def withSource (experiment : Experiment σ) (source : σ) : Experiment σ :=
  { experiment with
    simulation := { experiment.simulation with
      driver := { experiment.simulation.driver with source } } }

def run [SnapshotSource σ] (experiment : Experiment σ) : Except ExperimentError Report :=
  match experiment.simulation.run with
  | (.finished, finished) =>
    .ok (.ofRun finished.now finished.stats experiment.requests fun id => finished.requestStats[id]?)
  | (.failed error, _) => .error (.simulation error)
  | (.exhausted, _) => .error .endless

section
variable {m : Type → Type} [Monad m] [FileSystem m]

def scheduleFile (config : ExperimentConfig) : m FileContent :=
  match config.schedule with
  | none => pure .missing
  | some path => FileSystem.read path

def stateFiles (config : ExperimentConfig) : m (Except ExperimentError StateDirectory) := do
  match config.stateDirectory with
  | none => return .error (.setting .noStateDirectory)
  | some path =>
    return .ok (← StateDirectory.read path config.nodeCount config.epochLength config.epochCount)

def prepareOver [SnapshotSource σ] (config : ExperimentConfig) (source : σ) :
    m (Except ExperimentError (Experiment σ)) := do
  return prepare config source (← scheduleFile config)

def prepareFromFiles (config : ExperimentConfig) :
    m (Except ExperimentError (Experiment StateDirectory)) := do
  match ← stateFiles config with
  | .error error => return .error error
  | .ok directory => prepareOver config directory

end

end Experiment
end Multicast
