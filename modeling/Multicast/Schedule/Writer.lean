import Multicast.Decimal.Shortest
import Multicast.Request
import Multicast.Text.Line

/-!
Writing schedules, one line for each request. What a reader accepts, it reads back from the written
text, except for a carriage return at the end of metadata.
-/

namespace Multicast
open Text

namespace Schedule

def writeNat (value : Nat) : List Char := Nat.toDigits 10 value

def fields (request : Request) : List (List Char) :=
  [writeNat request.id, writeNat request.source, writeNat request.destinations.size,
    [' '].intercalate (request.destinations.toList.map writeNat),
    Decimal.writeFloat request.targetRate,
    writeNat request.start, writeNat request.duration, request.parameters.toList,
    request.metadata.toList]

def writeLine (request : Request) : List Char := [','].intercalate (fields request) ++ ['\n']

def write (requests : List Request) : String := String.ofList (requests.flatMap writeLine)

def writeBytes (requests : List Request) : List UInt8 := encodeUtf8 (write requests)

end Schedule
end Multicast
