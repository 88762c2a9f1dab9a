import Multicast.Event.Basic

/-!
Counters of a run, over all traffic and for each request.
-/

namespace Multicast

structure PriorityCounts where
  internal : Nat := 0
  timer : Nat := 0
  network : Nat := 0
  traffic : Nat := 0
deriving DecidableEq

namespace PriorityCounts

def count (counts : PriorityCounts) : Priority → PriorityCounts
  | .internal => { counts with internal := counts.internal + 1 }
  | .timer => { counts with timer := counts.timer + 1 }
  | .network => { counts with network := counts.network + 1 }
  | .traffic => { counts with traffic := counts.traffic + 1 }

def toList (counts : PriorityCounts) : List Nat :=
  [counts.internal, counts.timer, counts.network, counts.traffic]

end PriorityCounts

structure Stats where
  events : Nat := 0
  byPriority : PriorityCounts := {}
  refreshes : Nat := 0
  /-- Entries installed, summed over the refreshes. -/
  entriesInstalled : Nat := 0
  bindingsRemoved : Nat := 0
  packetsSent : Nat := 0
  /-- Copies handed to a neighbour. -/
  copiesForwarded : Nat := 0
  packetsDelivered : Nat := 0
  /-- Packets dropped where a node had no route. -/
  droppedNoRoute : Nat := 0
  /-- Copies dropped because their hop limit was spent. -/
  droppedExpired : Nat := 0
  /-- Copies dropped because nobody stands behind the interface. -/
  droppedUnresolved : Nat := 0
deriving DecidableEq

def Stats.dropped (stats : Stats) : Nat :=
  stats.droppedNoRoute + stats.droppedExpired + stats.droppedUnresolved

structure RequestStats where
  destinations : Nat := 0
  sent : Nat := 0
  delivered : Nat := 0
deriving DecidableEq, Inhabited

def countToFloat (count : Nat) : Float := count.toUInt64.toFloat

def RequestStats.deliveryRatio (stats : RequestStats) : Float :=
  let expected := countToFloat stats.sent * countToFloat stats.destinations
  if expected == 0.0 then 1.0 else countToFloat stats.delivered / expected

end Multicast
