import Multicast.Simulation.Stats
import Multicast.Split.Tag
import Multicast.Total

/-!
Reports of finished runs: the counters of the whole run, and those of each request with the share of
its packets that arrived.
-/

namespace Multicast

structure RequestReport where
  id : RequestId
  /-- The request that this one was split from. -/
  splitFrom : Option RequestId
  source : NodeId
  destinations : Nat
  sent : Nat
  delivered : Nat
  deliveryRatio : Float

structure Report where
  finish : Nat
  stats : Stats
  requests : List RequestReport

namespace Report

def ofRequest (request : Request) (stats : RequestStats) : RequestReport where
  id := request.id
  splitFrom := request.originId?
  source := request.source
  destinations := request.destinations.size
  sent := stats.sent
  delivered := stats.delivered
  deliveryRatio := stats.deliveryRatio

def ofRun (finish : Nat) (stats : Stats) (requests : List Request)
    (counters : RequestId → Option RequestStats) : Report :=
  ⟨finish, stats, requests.map fun request => ofRequest request ((counters request.id).getD {})⟩

def expected (report : Report) : Nat :=
  total (report.requests.map fun request => request.sent * request.destinations)

/-- Deliveries over those of a network without loss; one if none were due. -/
def deliveryRatio (report : Report) : Float :=
  if report.expected = 0 then 1.0
  else countToFloat report.stats.packetsDelivered / countToFloat report.expected

end Report
end Multicast
