import Multicast.Request
import Multicast.Topology

/-!
Generated schedules. Each request comes from one draw: a source among the ground stations, some of
the other stations as destinations, and a length centred on a midpoint. The time of a request is cut
to the run and is never empty.
-/

namespace Multicast
open Std

structure GeneratorConfig where
  count : Nat := 10
  seed : Nat := 0
  /-- The end of the run, which no request passes. -/
  finish : Nat := 4000000000
  rate : Float := 10.0
  /-- The mean number of destinations, or a twentieth of the stations. -/
  meanDestinations : Option Float := none
  /-- The mean duration, or a fifth of the run. -/
  meanDuration : Option Nat := none

structure Draw where
  source : Nat
  /-- The positions of the destinations among the stations other than the source. -/
  selection : List Nat
  length : Nat
  midpoint : Nat

structure Draw.Valid (draw : Draw) (roles : NodeRoles) (finish : Nat) : Prop where
  source_lt : draw.source < roles.stationCount
  selection_ne_nil : draw.selection ≠ []
  selection_nodup : draw.selection.Nodup
  selection_lt : ∀ position ∈ draw.selection, position + 1 < roles.stationCount
  midpoint_lt : draw.midpoint < finish

namespace Draw

/-- The station with the given position when the source is left out. -/
def candidate (draw : Draw) (roles : NodeRoles) (position : Nat) : NodeId :=
  roles.station (if position < draw.source then position else position + 1)

def start (draw : Draw) : Nat := draw.midpoint - draw.length / 2

def finish (draw : Draw) (limit : Nat) : Nat :=
  max (min (instantAfter draw.midpoint (draw.length / 2)) limit) (draw.start + 1)

def request (draw : Draw) (config : GeneratorConfig) (roles : NodeRoles) : Request where
  id := 0
  source := roles.station draw.source
  destinations := ExtTreeSet.ofList (draw.selection.map (draw.candidate roles))
  targetRate := config.rate
  start := draw.start
  duration := draw.finish config.finish - draw.start
  parameters := ""
  metadata := ""

end Draw

namespace GeneratorConfig

def canGenerate (config : GeneratorConfig) (roles : NodeRoles) : Bool :=
  2 ≤ roles.stationCount && config.finish ≠ 0

def generate (config : GeneratorConfig) (roles : NodeRoles) (draws : List Draw) : List Request :=
  if config.canGenerate roles then
    renumber ((draws.take config.count).map fun draw => draw.request config roles)
  else []

end GeneratorConfig
end Multicast
