import Multicast.Experiment.Config
import Multicast.Text.Numeral
import Multicast.Text.Separated

/-!
Command lines. Options have long names after two dashes, some have a letter after one dash, and a
value follows an equals sign or stands in the next argument. Each is given once at most. Arguments are
taken in order, and the first that asks for the version or the help, or cannot be taken, decides.
-/

namespace Multicast.CommandLine
open Multicast.Text

structure Options where
  config : Option String := none
  finish : Option Nat := none
  forceStatic : Bool := false
  forwarding : Option Forwarding := none
  seed : Option Nat := none
  writeSchedule : Option String := none
  logLevel : Option String := none

inductive Invocation where
  | run (config : String) (options : Options)
  | version
  | help
  | misused

inductive ValueOption where
  | config
  | finish
  | forwarding
  | seed
  | writeSchedule
  | logLevel
deriving DecidableEq

def ValueOption.ofName? : String → Option ValueOption
  | "config" => some .config
  | "end-time-ns" => some .finish
  | "forwarding" => some .forwarding
  | "seed" => some .seed
  | "write-schedule" => some .writeSchedule
  | "log-level" => some .logLevel
  | _ => none

def forwardingOfName? : String → Option Forwarding
  | "route-table" => some .routeTable
  | "bier" => some .bier
  | _ => none

namespace Options

/-- A value for an option that has none so far. -/
def once {α : Type} (present value : Option α) : Option (Option α) :=
  match present, value with
  | none, some value => some (some value)
  | _, _ => none

def path? (text : String) : Option String := if text = "" then none else some text

def set (options : Options) (option : ValueOption) (text : String) : Option Options :=
  match option with
  | .config => (once options.config (path? text)).map fun config => { options with config }
  | .finish => (once options.finish (readUInt64? text.toList)).map fun finish =>
      { options with finish }
  | .forwarding => (once options.forwarding (forwardingOfName? text)).map fun forwarding =>
      { options with forwarding }
  | .seed => (once options.seed (readUInt64? text.toList)).map fun seed => { options with seed }
  | .writeSchedule => (once options.writeSchedule (path? text)).map fun writeSchedule =>
      { options with writeSchedule }
  | .logLevel => (once options.logLevel (some text)).map fun logLevel => { options with logLevel }

def overrides (options : Options) : Overrides where
  finish := options.finish
  forceStatic := if options.forceStatic then some true else none
  forwarding := options.forwarding
  seed := options.seed

def invocation (options : Options) : Invocation :=
  match options.config with
  | none => .misused
  | some config => .run config options

end Options

inductive Argument where
  /-- Two dashes alone, after which no option comes. -/
  | terminator
  | version
  | help
  | forceStatic
  | assigned (option : ValueOption) (value : String)
  | announced (option : ValueOption)
  | unknown

namespace Argument

def ofLong (name : String) (attached : Option String) : Argument :=
  match ValueOption.ofName? name, attached with
  | some option, some value => .assigned option value
  | some option, none => .announced option
  | none, some _ => .unknown
  | none, none =>
    match name with
    | "version" => .version
    | "help" => .help
    | "force-static" => .forceStatic
    | _ => .unknown

def ofShort : List Char → Argument
  | 'V' :: _ => .version
  | 'h' :: _ => .help
  | ['c'] => .announced .config
  | 'c' :: '=' :: value => .assigned .config (String.ofList value)
  | 'c' :: value => .assigned .config (String.ofList value)
  | _ => .unknown

def ofText (text : String) : Argument :=
  match text.toList with
  | ['-', '-'] => .terminator
  | '-' :: '-' :: body =>
    match splitFirst? '=' body with
    | none => ofLong (String.ofList body) none
    | some (name, value) => ofLong (String.ofList name) (some (String.ofList value))
  | '-' :: body => ofShort body
  | _ => .unknown

end Argument

/-- Whether an argument cannot be the value of the option before it. -/
def startsOption (text : String) : Bool := text.toList.head? = some '-' && text ≠ "-"

def parseFrom (options : Options) : List String → Invocation
  | [] => options.invocation
  | argument :: rest =>
    match Argument.ofText argument with
    | .terminator => if rest.isEmpty then options.invocation else .misused
    | .version => .version
    | .help => .help
    | .forceStatic =>
      if options.forceStatic then .misused else parseFrom { options with forceStatic := true } rest
    | .assigned option value =>
      match options.set option value with
      | none => .misused
      | some later => parseFrom later rest
    | .announced option =>
      match rest with
      | [] => .misused
      | value :: others =>
        if startsOption value then .misused
        else match options.set option value with
          | none => .misused
          | some later => parseFrom later others
    | .unknown => .misused

def parse (arguments : List String) : Invocation := parseFrom {} arguments

end Multicast.CommandLine
