import Multicast.Experiment.Error
import Multicast.Files.Path
import Multicast.Files.System
import Multicast.Text.Line
import Multicast.Toml.Decode
import Multicast.Toml.Reader

/-!
Configurations from TOML. The number of nodes has to be given, and every other setting has a default.
Paths in a file are meant from the directory the file is in.
-/

namespace Multicast
open Toml

namespace Forwarding

def ofName? : String → Option Forwarding
  | "route_table" => some .routeTable
  | "bier" => some .bier
  | _ => none

/-- A name, or a table with one name that has nothing under it. -/
def ofValue? : Value → Option Forwarding
  | .text name => ofName? name
  | .table _ [(name, value)] => if value.isVacant then ofName? name else none
  | _ => none

end Forwarding

def GeneratorConfig.ofValue? (value : Value) : Option GeneratorConfig := do
  let fields ← value.fields? ["count", "seed", "rate_mbps", "mean_destinations", "mean_duration_ns"]
  let defaults : GeneratorConfig := {}
  return { defaults with
    count := ← fields.orElse "count" Value.uint64? defaults.count
    seed := ← fields.orElse "seed" Value.uint64? defaults.seed
    rate := ← fields.orElse "rate_mbps" Value.float? defaults.rate
    meanDestinations := ← fields.optional "mean_destinations" Value.float?
    meanDuration := ← fields.optional "mean_duration_ns" Value.uint64? }

namespace ExperimentConfig

def ofTopology? (value : Value) : Option ExperimentConfig := do
  let fields ← value.fields? ["num_nodes", "num_satellites"]
  return {
    nodeCount := ← fields.required "num_nodes" Value.uint32?
    satelliteCount := ← fields.orElse "num_satellites" Value.uint32? 0 }

def readRouting (config : ExperimentConfig) (value : Value) : Option ExperimentConfig := do
  let fields ← value.fields?
    ["fstate_dir", "refresh_interval_ns", "force_static", "unbind_grace_ns", "forwarding"]
  return { config with
    stateDirectory := ← fields.optional "fstate_dir" Value.text?
    refreshInterval := ← fields.orElse "refresh_interval_ns" Value.uint64? config.refreshInterval
    forceStatic := ← fields.orElse "force_static" Value.boolean? config.forceStatic
    grace := ← fields.orElse "unbind_grace_ns" Value.uint64? config.grace
    forwarding := ← fields.orElse "forwarding" Forwarding.ofValue? config.forwarding }

def readTraffic (config : ExperimentConfig) (value : Value) : Option ExperimentConfig := do
  let fields ← value.fields? ["schedule", "split_at_source", "generate"]
  return { config with
    schedule := ← fields.optional "schedule" Value.text?
    splitAtSource := ← fields.orElse "split_at_source" Value.boolean? config.splitAtSource
    generator := ← fields.optional "generate" GeneratorConfig.ofValue? }

def readPosition (value : Value) : Option (NodeId × Nat) := do
  let fields ← value.fields? ["node", "bit_position"]
  return (← fields.required "node" Value.uint32?, ← fields.required "bit_position" Value.uint32?)

def readBier (config : ExperimentConfig) (value : Value) : Option ExperimentConfig := do
  let fields ← value.fields? ["bit_positions"]
  let positions ← fields.orElse "bit_positions" Value.items? []
  return { config with positions := ← positions.mapM readPosition }

def ofEntries? (entries : Entries) : Option ExperimentConfig := do
  let network ← entries.required "topology" ofTopology?
  let timed := { network with
    finish := ← entries.orElse "end_time_ns" Value.uint64? network.finish
    linkLatency := ← entries.orElse "link_latency_ns" Value.uint64? network.linkLatency }
  let routed ← entries.orElse "routing" timed.readRouting timed
  let loaded ← entries.orElse "traffic" routed.readTraffic routed
  entries.orElse "bier" loaded.readBier loaded

def ofText? (text : String) : Option ExperimentConfig := (Toml.read? text).bind ofEntries?

def resolve (directory : String) (config : ExperimentConfig) : ExperimentConfig :=
  { config with
    stateDirectory := config.stateDirectory.map (Path.join directory)
    schedule := config.schedule.map (Path.join directory) }

def ofContent (path : String) : FileContent → Except ExperimentError ExperimentConfig
  | .missing => .error (.unreadableConfig path FileContent.missingReason)
  | .unopened reason | .unreadable reason => .error (.unreadableConfig path reason)
  | .bytes content =>
    match Text.decodeUtf8? content with
    | none => .error (.unreadableConfig path Text.invalidUtf8)
    | some text =>
      match ofText? (String.ofList text) with
      | none => .error (.malformedConfig path)
      | some config => .ok (config.resolve (Path.parent path))

def read {m : Type → Type} [Monad m] [FileSystem m] (path : String) :
    m (Except ExperimentError ExperimentConfig) := do
  return ofContent path (← FileSystem.read path)

end ExperimentConfig
end Multicast
