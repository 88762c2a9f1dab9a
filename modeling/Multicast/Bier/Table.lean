import Multicast.Bier.Bitstring

/-!
Bitstring forwarding at one node. An entry tells where a bit position is sent, and its mask has every
position sent the same way. Forwarding takes the lowest position left, sends all positions under its
entry's mask in one copy, and goes on with the rest, so each position leaves in exactly one copy.
-/

namespace Multicast
open Std

structure BierEntry where
  position : Nat
  mask : Bitstring
  nextHop : NodeId
  /-- The position of the next hop, if it is itself a destination. -/
  nextHopPosition : Option Nat
  outInterface : InterfaceId
deriving DecidableEq

structure Replica where
  nextHop : NodeId
  outInterface : InterfaceId
  bitstring : Bitstring
deriving DecidableEq

structure BierDecision where
  deliverLocally : Bool
  replicas : List Replica
deriving DecidableEq

structure BierTable where
  node : NodeId
  localPosition : Option Nat
  entries : ExtTreeMap Nat BierEntry
deriving DecidableEq

namespace BierTable

def empty (node : NodeId) (localPosition : Option Nat) : BierTable := ⟨node, localPosition, ∅⟩

def install (table : BierTable) (entry : BierEntry) : BierTable :=
  { table with entries := table.entries.insert entry.position entry }

def clear (table : BierTable) : BierTable := { table with entries := ∅ }

def size (table : BierTable) : Nat := table.entries.size

def isEmpty (table : BierTable) : Bool := table.entries.isEmpty

def lookup (table : BierTable) (position : Nat) : Except BierError BierEntry :=
  match table.entries[position]? with
  | none => .error (.unknownBitPosition table.node position)
  | some entry => .ok entry

/-- The copies for the remaining positions, none of which comes before the listed ones. A listed
position that an earlier copy has taken is passed over. -/
def replicate (table : BierTable) : List Nat → Bitstring → Except BierError (List Replica)
  | [], _ => .ok []
  | position :: later, remaining =>
    if remaining.test position then
      match table.lookup position with
      | .error error => .error error
      | .ok entry =>
        let sent := remaining &&& entry.mask
        if sent.test position then
          match table.replicate later (remaining ^^^ sent) with
          | .error error => .error error
          | .ok replicas => .ok (⟨entry.nextHop, entry.outInterface, sent⟩ :: replicas)
        else .error (.inconsistentMask table.node position)
    else table.replicate later remaining

def forward (table : BierTable) (bitstring : Bitstring) : Except BierError (List Replica) :=
  table.replicate (List.range bitCount) bitstring

/-- The node's own position is delivered here and the others are forwarded. -/
def process (table : BierTable) (bitstring : Bitstring) : Except BierError BierDecision := do
  match table.localPosition with
  | none => return ⟨false, ← table.forward bitstring⟩
  | some position =>
    if bitstring.test position then
      return ⟨true, ← table.forward (← bitstring.clear position)⟩
    else return ⟨false, ← table.forward bitstring⟩

end BierTable
end Multicast
