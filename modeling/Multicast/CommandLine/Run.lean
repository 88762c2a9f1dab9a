import Multicast.CommandLine.Options
import Multicast.Experiment.Run
import Multicast.Experiment.Summary
import Multicast.Schedule.Writer

/-!
Running a command line: the experiment of a configuration file is prepared, its schedule is written
if that is asked for, and after the run the summary is printed. Nothing is printed of a run that fails.
-/

namespace Multicast.CommandLine

structure Outcome where
  exitCode : UInt8
  output : String
  diagnostics : String

def versionText : String := "skycast-sim 0.1.0\n"

def usageText : String := String.join ([
  "Usage: skycast-sim [OPTIONS] --config <CONFIG>",
  "",
  "Options:",
  "  -c, --config <CONFIG>                  Path to the run configuration (TOML)",
  "      --end-time-ns <END_TIME_NS>        Simulation end in nanoseconds (overrides config)",
  "      --force-static                     Route once at time 0 and never refresh",
  "      --forwarding <FORWARDING>          Forwarding backend: route-table or bier",
  "      --seed <SEED>                      Seed of the generated schedule (overrides config)",
  "      --write-schedule <WRITE_SCHEDULE>  Write the simulated schedule to this file",
  "      --log-level <LOG_LEVEL>            Log level filter",
  "  -h, --help                             Print help",
  "  -V, --version                          Print version"].map (· ++ "\n"))

section
variable {m : Type → Type} [Monad m] [FileSystem m]

/-- Write the schedule of a prepared run. State files are read anew, for one of them may have been
written over. -/
def writeSchedule (experiment : Experiment StateDirectory) (path : String) :
    ExceptT ExperimentError m (Experiment StateDirectory) := do
  let written : m (Except String Unit) :=
    FileSystem.write path (Schedule.writeBytes experiment.requests)
  match ← ExceptT.lift written with
  | .error reason => throw (.unwrittenSchedule path reason)
  | .ok () => return experiment.withSource (← ExceptT.mk (Experiment.stateFiles experiment.config))

def runExperiment (config : String) (options : Options) : ExceptT ExperimentError m Report := do
  let settings ← ExceptT.mk (ExperimentConfig.read config)
  let prepared ← ExceptT.mk (Experiment.prepareFromFiles (options.overrides.apply settings))
  let experiment ← match options.writeSchedule with
    | none => pure prepared
    | some path => writeSchedule prepared path
  ExceptT.mk (pure experiment.run)

def diagnosis (error : ExperimentError) : String :=
  match error.context? with
  | none => s!"Error: {error.message}\n"
  | some context => s!"Error: {context}\n\nCaused by:\n    {error.message}\n"

def execute (arguments : List String) : m Outcome := do
  match parse arguments with
  | .version => return ⟨0, versionText, ""⟩
  | .help => return ⟨0, usageText, ""⟩
  | .misused => return ⟨2, "", usageText⟩
  | .run config options =>
    match ← runExperiment config options with
    | .error error => return ⟨1, "", diagnosis error⟩
    | .ok report => return ⟨0, report.summary, ""⟩

end

end Multicast.CommandLine
