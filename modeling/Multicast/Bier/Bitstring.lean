import Multicast.Identifier
import Multicast.Text.Numeral

/-!
Bitstrings: sets of up to 128 bit positions, each position standing for one destination. Positions
from 128 on are refused where they would be changed and are never members.
-/

namespace Multicast

abbrev bitCount : Nat := 128

inductive BierError where
  | bitOutOfRange (position : Nat)
  | unknownBitPosition (node : NodeId) (position : Nat)
  | inconsistentMask (node : NodeId) (position : Nat)
  | unassignedNode (node : NodeId)
  | duplicateBitPosition (position : Nat) (first second : NodeId)
deriving DecidableEq

def BierError.message : BierError → String
  | .bitOutOfRange position => s!"bit position {position} outside the 128-bit bitstring"
  | .unknownBitPosition node position =>
    s!"node {node}: no BIER table entry for bit position {position}"
  | .inconsistentMask node position =>
    s!"node {node}: entry for bit position {position} does not cover its own bit"
  | .unassignedNode node => s!"node {node} has no bit position"
  | .duplicateBitPosition position first second =>
    s!"bit position {position} assigned to both node {first} and node {second}"

structure Bitstring where
  bits : BitVec bitCount
deriving DecidableEq

namespace Bitstring

def zero : Bitstring := ⟨0⟩

instance : Inhabited Bitstring := ⟨zero⟩

def test (bitstring : Bitstring) (position : Nat) : Bool := bitstring.bits.getLsbD position

def single (position : Nat) : Bitstring := ⟨BitVec.twoPow bitCount position⟩

instance : AndOp Bitstring := ⟨fun one other => ⟨one.bits &&& other.bits⟩⟩

instance : OrOp Bitstring := ⟨fun one other => ⟨one.bits ||| other.bits⟩⟩

instance : XorOp Bitstring := ⟨fun one other => ⟨one.bits ^^^ other.bits⟩⟩

def without (bitstring removed : Bitstring) : Bitstring := ⟨bitstring.bits &&& ~~~removed.bits⟩

def set (bitstring : Bitstring) (position : Nat) : Except BierError Bitstring :=
  if position < bitCount then .ok (bitstring ||| single position)
  else .error (.bitOutOfRange position)

def clear (bitstring : Bitstring) (position : Nat) : Except BierError Bitstring :=
  if position < bitCount then .ok (bitstring.without (single position))
  else .error (.bitOutOfRange position)

def ofPositions (positions : List Nat) : Except BierError Bitstring := positions.foldlM set zero

def positions (bitstring : Bitstring) : List Nat := (List.range bitCount).filter bitstring.test

def lowest? (bitstring : Bitstring) : Option Nat := (List.range bitCount).find? bitstring.test

def count (bitstring : Bitstring) : Nat := (List.range bitCount).countP bitstring.test

def isZero (bitstring : Bitstring) : Bool := bitstring.bits = 0

def words (bitstring : Bitstring) : List UInt32 :=
  [0, 32, 64, 96].map fun first => ⟨bitstring.bits.extractLsb' first 32⟩

def ofWords (first second third fourth : UInt32) : Bitstring :=
  ⟨fourth.toBitVec ++ third.toBitVec ++ second.toBitVec ++ first.toBitVec⟩

def hexText (bitstring : Bitstring) : String :=
  let words := bitstring.words.reverse.map fun word => Text.writeHex 8 word.toNat
  "Bitstring(" ++ "_".intercalate words ++ ")"

instance : ToString Bitstring where
  toString bitstring :=
    "\x7b" ++ ", ".intercalate (bitstring.positions.map toString) ++ "\x7d"

end Bitstring
end Multicast
