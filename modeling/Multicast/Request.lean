import Multicast.Address

/-!
Multicast requests. A request sends packets from one source to a set of destinations at a target
rate, from its start until its finish, which is exclusive.
-/

namespace Multicast

structure Request where
  id : RequestId
  source : NodeId
  destinations : NodeSet
  /-- Megabits per second. -/
  targetRate : Float
  start : Nat
  duration : Nat
  parameters : String
  metadata : String
deriving DecidableEq

/-- The least natural number not below the value, held at `2 ^ 64 - 1`. Negative values and values
that are not numbers give zero. -/
def roundUp (value : Float) : Nat :=
  let whole := value.toUInt64
  if whole.toFloat < value then min (whole.toNat + 1) lastInstant else whole.toNat

namespace Request

def finish (request : Request) : Nat := instantAfter request.start request.duration

def activeDuring (request : Request) (opening closing : Nat) : Bool :=
  request.start < closing && opening < request.finish

def group (request : Request) (base : GroupAddress) : GroupAddress := .forRequest base request.id

/-- Time between two packets of 1500 bytes at the target rate, rounded up. -/
def packetGap (request : Request) : Nat := roundUp (12000000.0 / request.targetRate)

end Request

def renumber (requests : List Request) : List Request :=
  let sorted := requests.mergeSort fun one other => one.start ≤ other.start
  sorted.zipIdx.map fun entry => { entry.1 with id := entry.2 }

end Multicast
