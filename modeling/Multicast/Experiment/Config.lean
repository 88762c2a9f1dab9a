import Multicast.Bier.Positions
import Multicast.Simulation.Run
import Multicast.Split.OverEpochs
import Multicast.Traffic.Generator

/-!
Settings of an experiment: the network, where its unicast state is, how packets are forwarded, where
the requests come from, and for how long they run. Some combinations cannot be run; `check` finds the
first thing that is wrong.
-/

namespace Multicast

structure ExperimentConfig where
  finish : Nat := 1000000000
  linkLatency : Nat := 1000000
  nodeCount : Nat
  satelliteCount : Nat := 0
  stateDirectory : Option String := none
  refreshInterval : Nat := 100000000
  /-- Build the forwarding state once, for the whole run. -/
  forceStatic : Bool := false
  grace : Nat := 10000000
  forwarding : Forwarding := .routeTable
  /-- The file of the schedule, which goes before a generated one. -/
  schedule : Option String := none
  splitAtSource : Bool := false
  /-- How a schedule is generated; the end of the run stands in for the one given there. -/
  generator : Option GeneratorConfig := none
  /-- Bit positions of destinations; if there are none, destinations are numbered in order. -/
  positions : List (NodeId × Nat) := []

inductive SettingFault where
  | noStateDirectory
  | noNodes
  | tooManySatellites (satelliteCount nodeCount : Nat)
  | noTime
  | noInterval
  | noTraffic
  | splitWithBier
deriving DecidableEq

def SettingFault.message : SettingFault → String
  | .noStateDirectory => "routing.fstate_dir is required"
  | .noNodes => "topology.num_nodes must be positive"
  | .tooManySatellites satelliteCount nodeCount =>
    s!"topology.num_satellites ({satelliteCount}) exceeds num_nodes ({nodeCount})"
  | .noTime => "end_time_ns must be positive"
  | .noInterval => "routing.refresh_interval_ns must be positive"
  | .noTraffic => "traffic needs either a schedule file or a [traffic.generate] section"
  | .splitWithBier => "traffic.split_at_source only applies to the route_table backend"

namespace ExperimentConfig

def check (config : ExperimentConfig) : Except SettingFault Unit :=
  if config.nodeCount = 0 then .error .noNodes
  else if config.nodeCount < config.satelliteCount then
    .error (.tooManySatellites config.satelliteCount config.nodeCount)
  else if config.finish = 0 then .error .noTime
  else if config.refreshInterval = 0 then .error .noInterval
  else if config.schedule.isNone && config.generator.isNone then .error .noTraffic
  else if config.splitAtSource && config.forwarding = .bier then .error .splitWithBier
  else .ok ()

def roles (config : ExperimentConfig) : NodeRoles :=
  .ofCounts config.nodeCount config.satelliteCount

def refresh (config : ExperimentConfig) : RefreshConfig where
  interval := config.refreshInterval
  finish := config.finish
  forceStatic := config.forceStatic
  grace := config.grace
  forwarding := config.forwarding

def simulation (config : ExperimentConfig) : SimulationConfig where
  refresh := config.refresh
  linkLatency := config.linkLatency

/-- How the schedule is generated, cut to the end of the run. -/
def generator? (config : ExperimentConfig) : Option GeneratorConfig :=
  config.generator.map fun generator => { generator with finish := config.finish }

def epochLength (config : ExperimentConfig) : Nat :=
  if config.forceStatic then config.finish else config.refreshInterval

def epochCount (config : ExperimentConfig) : Nat :=
  laterEpochs config.epochLength config.finish + 1

def withSeed (config : ExperimentConfig) (seed : Nat) : ExperimentConfig :=
  { config with generator := some { config.generator.getD {} with seed } }

end ExperimentConfig

structure Overrides where
  finish : Option Nat := none
  forceStatic : Option Bool := none
  forwarding : Option Forwarding := none
  generate : Bool := false
  seed : Option Nat := none
  schedule : Option String := none
  splitAtSource : Option Bool := none

namespace Overrides

def apply (overrides : Overrides) (config : ExperimentConfig) : ExperimentConfig :=
  let replaced : ExperimentConfig := { config with
    finish := overrides.finish.getD config.finish
    forceStatic := overrides.forceStatic.getD config.forceStatic
    forwarding := overrides.forwarding.getD config.forwarding
    generator := if overrides.generate then some {} else config.generator
    schedule := overrides.schedule <|> config.schedule
    splitAtSource := overrides.splitAtSource.getD config.splitAtSource }
  match overrides.seed with
  | none => replaced
  | some seed => replaced.withSeed seed

end Overrides
end Multicast
