import Multicast.Topology

/-!
The link bindings in force. Every refresh begins a generation and renews the bindings it needs, so a
binding of an older generation is stale. A stale binding stays until its removal comes due, and is
kept if a refresh has renewed it by then.
-/

namespace Multicast
open Std

structure LinkBindings where
  /-- The generation that last needed each binding. -/
  bound : ExtTreeMap LinkBinding Nat
  generation : Nat
deriving DecidableEq

namespace LinkBindings

def empty : LinkBindings := ⟨∅, 0⟩

instance : Inhabited LinkBindings := ⟨empty⟩

def size (bindings : LinkBindings) : Nat := bindings.bound.size

def isEmpty (bindings : LinkBindings) : Bool := bindings.bound.isEmpty

def contains (bindings : LinkBindings) (binding : LinkBinding) : Bool :=
  bindings.bound.contains binding

def beginGeneration (bindings : LinkBindings) : LinkBindings :=
  { bindings with generation := bindings.generation + 1 }

def bind (bindings : LinkBindings) (binding : LinkBinding) : LinkBindings :=
  { bindings with bound := bindings.bound.insert binding bindings.generation }

def bindAll (bindings : LinkBindings) : List LinkBinding → LinkBindings × Nat
  | [] => (bindings, 0)
  | binding :: rest =>
    let (bound, created) := (bindings.bind binding).bindAll rest
    (bound, if bindings.contains binding then created else created + 1)

/-- The bindings that the generation before the current one was the last to need. -/
def newlyStale (bindings : LinkBindings) : List LinkBinding :=
  (bindings.bound.filter fun _ generation => generation + 1 = bindings.generation).keys

def isStale (bindings : LinkBindings) (binding : LinkBinding) : Bool :=
  match bindings.bound[binding]? with
  | none => false
  | some generation => generation < bindings.generation

def unbindIfStale (bindings : LinkBindings) (binding : LinkBinding) : LinkBindings :=
  if bindings.isStale binding then { bindings with bound := bindings.bound.erase binding }
  else bindings

/-- The bindings from a given one on, in ascending order, up to the last for the same frames. -/
def fromOn (bindings : LinkBindings) (first : LinkBinding) : List LinkBinding :=
  bindings.bound.keys.filter fun binding =>
    (compare first binding).isLE && (compare binding.channel first.channel).isLE

def receivers (bindings : LinkBindings) (group : GroupAddress) (node : NodeId)
    (interface : InterfaceId) : List (NodeId × InterfaceId) :=
  (bindings.fromOn ⟨group, node, interface, 0, 0⟩).map
    fun binding => (binding.receiver, binding.receiverInterface)

end LinkBindings
end Multicast
