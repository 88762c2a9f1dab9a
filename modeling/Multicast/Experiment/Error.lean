import Multicast.Experiment.Config
import Multicast.Schedule.Error

/-!
Why an experiment has no report. The context tells what was being done when the cause arose.
-/

namespace Multicast

inductive ExperimentError where
  | unreadableConfig (path reason : String)
  | malformedConfig (path : String)
  | setting (fault : SettingFault)
  | schedule (error : ScheduleError)
  | split (error : SplitError)
  | position (node : NodeId) (error : BierError)
  | numbering (error : BierError)
  | unwrittenSchedule (path reason : String)
  | simulation (error : SimulationError)
  /-- The allowance of events is used up. -/
  | endless
deriving DecidableEq

namespace ExperimentError

def context? : ExperimentError → Option String
  | .unreadableConfig path _ => some ("Failed to read config file: " ++ path)
  | .malformedConfig path => some ("Failed to parse config file: " ++ path)
  | .setting _ | .schedule _ => none
  | .split _ => some "Failed to split requests at their sources"
  | .position node _ => some s!"Invalid bit position for node {node}"
  | .numbering _ =>
    some "More BIER destinations than bit positions; configure [[bier.bit_positions]]"
  | .unwrittenSchedule path _ => some ("Failed to create schedule file: " ++ path)
  | .simulation _ | .endless => some "Simulation aborted"

def message : ExperimentError → String
  | .unreadableConfig _ reason => reason
  | .malformedConfig _ => "not a configuration in TOML"
  | .setting fault => fault.message
  | .schedule error => error.message
  | .split error => error.message
  | .position _ error => error.message
  | .numbering error => error.message
  | .unwrittenSchedule _ reason => reason
  | .simulation error => error.message
  | .endless => "no end in sight"

end ExperimentError
end Multicast
