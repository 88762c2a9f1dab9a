import Multicast.Decimal.Places
import Multicast.Experiment.Report

/-!
Summaries for people. Times have three decimal places and percentages two, and the columns of the
requests are set to the right, except the first one.
-/

namespace Multicast

namespace Summary

def padLeft (width : Nat) (text : String) : String :=
  String.ofList (List.replicate (width - text.length) ' ') ++ text

def places (count : Nat) (value : Float) : String := String.ofList (Decimal.writePlaces count value)

/-- A time in seconds. The whole seconds and the rest are converted one by one. -/
def seconds (time : Nat) : Float :=
  countToFloat (time / 1000000000) + countToFloat (time % 1000000000) / 1000000000.0

def percent (share : Float) : String := places 2 (share * 100.0) ++ "%"

def simulationLines (report : Report) : List String := [
  "",
  "=== Simulation Summary ===",
  "Simulated time:     " ++ places 3 (seconds report.finish) ++ " s",
  s!"Events processed:   {report.stats.events}",
  s!"Refreshes:          {report.stats.refreshes}",
  s!"Entries installed:  {report.stats.entriesInstalled}",
  s!"Bindings removed:   {report.stats.bindingsRemoved}"]

def droppedLine (stats : Stats) : String :=
  s!"Dropped:            {stats.dropped} (no route {stats.droppedNoRoute}, " ++
    s!"ttl {stats.droppedExpired}, unresolved {stats.droppedUnresolved})"

def trafficLines (report : Report) : List String := [
  "",
  "=== Traffic ===",
  s!"Packets sent:       {report.stats.packetsSent}",
  s!"Copies forwarded:   {report.stats.copiesForwarded}",
  s!"Packets delivered:  {report.stats.packetsDelivered}",
  droppedLine report.stats,
  "Delivery ratio:     " ++ percent report.deliveryRatio]

def columns (first : String) (texts : List String) : String :=
  first ++ String.join (([10, 6, 6, 10, 10, 8].zip texts).map fun column =>
    " " ++ padLeft column.1 column.2)

def heading : String :=
  columns "    id" ["split_from", "src", "dsts", "sent", "delivered", "ratio"]

def requestLine (request : RequestReport) : String :=
  columns (toString request.id) [
    (request.splitFrom.map toString).getD "-", toString request.source,
    toString request.destinations, toString request.sent, toString request.delivered,
    percent request.deliveryRatio]

def requestLines (requests : List RequestReport) : List String :=
  if requests.isEmpty then [] else ["", "=== Requests ===", heading] ++ requests.map requestLine

end Summary

def Report.summary (report : Report) : String :=
  String.join ((Summary.simulationLines report ++ Summary.trafficLines report ++
    Summary.requestLines report.requests).map (· ++ "\n"))

end Multicast
