import Multicast.Bier.Bitstring

/-!
Packet headers on the wire. A header starts with the request and the sequence number, each as eight
bytes with the highest first. With a bitstring, the four words follow, each as four bytes with the
lowest first. A header is read off the front of a buffer, which keeps all its bytes if there are too few.
-/

namespace Multicast

abbrev Bytes := List UInt8

def littleEndian (count : Nat) (value : Nat) : Bytes :=
  (List.range count).map fun index => UInt8.ofNat (value >>> (8 * index))

def bigEndian (count : Nat) (value : Nat) : Bytes := (littleEndian count value).reverse

def ofLittleEndian : Bytes → Nat
  | [] => 0
  | byte :: rest => byte.toNat + 256 * ofLittleEndian rest

def ofBigEndian (bytes : Bytes) : Nat := ofLittleEndian bytes.reverse

inductive HeaderError where
  | truncated (needed available : Nat)
deriving DecidableEq

def HeaderError.message : HeaderError → String
  | .truncated needed available =>
    s!"header truncated: need {needed} bytes, have {available}"

def takeBytes (count : Nat) : StateM Bytes Bytes :=
  modifyGet fun buffer => (buffer.take count, buffer.drop count)

def takeNumber : StateM Bytes UInt64 := return UInt64.ofNat (ofBigEndian (← takeBytes 8))

def takeWord : StateM Bytes UInt32 := return UInt32.ofNat (ofLittleEndian (← takeBytes 4))

/-- Take a value off a buffer that has the bytes it needs. The buffer is there after a failure, too. -/
def takeSized {α : Type} (needed : Nat) (take : StateM Bytes α) (buffer : Bytes) :
    Except HeaderError α × Bytes :=
  if buffer.length < needed then (.error (.truncated needed buffer.length), buffer)
  else
    let (value, rest) := take.run buffer
    (.ok value, rest)

structure PacketHeader where
  request : UInt64
  sequence : UInt64
deriving DecidableEq

namespace PacketHeader

def size : Nat := 16

def encode (header : PacketHeader) : Bytes :=
  bigEndian 8 header.request.toNat ++ bigEndian 8 header.sequence.toNat

def take : StateM Bytes PacketHeader := do
  let request ← takeNumber
  let sequence ← takeNumber
  return ⟨request, sequence⟩

def decodeInPlace (buffer : Bytes) : Except HeaderError PacketHeader × Bytes :=
  takeSized size take buffer

def decode (bytes : Bytes) : Except HeaderError (PacketHeader × Bytes) :=
  match decodeInPlace bytes with
  | (.ok header, rest) => .ok (header, rest)
  | (.error error, _) => .error error

end PacketHeader

structure BierHeader where
  request : UInt64
  sequence : UInt64
  bitstring : Bitstring
deriving DecidableEq

namespace BierHeader

def size : Nat := PacketHeader.size + 16

def encode (header : BierHeader) : Bytes :=
  PacketHeader.encode ⟨header.request, header.sequence⟩ ++
    header.bitstring.words.flatMap fun word => littleEndian 4 word.toNat

def takeBitstring : StateM Bytes Bitstring := do
  let first ← takeWord
  let second ← takeWord
  let third ← takeWord
  let fourth ← takeWord
  return .ofWords first second third fourth

def take : StateM Bytes BierHeader := do
  let header ← PacketHeader.take
  let bitstring ← takeBitstring
  return ⟨header.request, header.sequence, bitstring⟩

def decodeInPlace (buffer : Bytes) : Except HeaderError BierHeader × Bytes :=
  takeSized size take buffer

def decode (bytes : Bytes) : Except HeaderError (BierHeader × Bytes) :=
  match decodeInPlace bytes with
  | (.ok header, rest) => .ok (header, rest)
  | (.error error, _) => .error error

def withBitstring (header : BierHeader) (bitstring : Bitstring) : BierHeader :=
  { header with bitstring }

end BierHeader
end Multicast
