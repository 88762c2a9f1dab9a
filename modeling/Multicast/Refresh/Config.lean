import Multicast.Bier.Bitstring
import Multicast.Event.Basic
import Multicast.Route.Table
import Multicast.Unicast.Source

/-!
Settings, states and results of refreshes.
-/

namespace Multicast

inductive Forwarding where
  /-- By route tables that name each group. -/
  | routeTable
  /-- By bitstrings in the packets. -/
  | bier
deriving DecidableEq

structure RefreshConfig where
  interval : Nat := 100000000
  finish : Nat := 1000000000
  forceStatic : Bool := false
  /-- How long a stale link binding stays. -/
  grace : Nat := 10000000
  forwarding : Forwarding := .routeTable
deriving DecidableEq

/-- The end of the run as an instant. No refresh is set for it or later. -/
def RefreshConfig.finishInstant (config : RefreshConfig) : Nat := min config.finish lastInstant

inductive RefreshError where
  | epochNotIncreasing (previous epoch : Nat)
  | snapshot (error : SnapshotError)
  | tree (error : TreeError)
  | route (error : RouteError)
  | bier (error : BierError)
deriving DecidableEq

def RefreshError.message : RefreshError → String
  | .epochNotIncreasing previous epoch =>
    s!"epoch {epoch} ns does not follow the previous epoch {previous} ns"
  | .snapshot error => error.message
  | .tree error => error.message
  | .route error => error.message
  | .bier error => error.message

inductive RefreshState where
  | idle
  | scheduled (epoch : Nat)
deriving DecidableEq

structure RefreshOutcome where
  epoch : Nat
  activeRequests : Nat
  /-- Entries of route tables, or of bitstring tables. -/
  entriesInstalled : Nat
  bindingsCreated : Nat
  bindingsStale : Nat
  nextEpoch : Option Nat
deriving DecidableEq

structure TimerRequest where
  timer : Timer
  delay : Nat
deriving DecidableEq

end Multicast
