import Multicast.Decimal.Reader
import Multicast.Request
import Multicast.Schedule.Error
import Multicast.Text.Blank
import Multicast.Text.Line
import Multicast.Topology

/-!
Reading schedules. Each line that is not blank is a request of nine fields between commas: number,
source, count of destinations, destinations, rate, start, duration, parameters and metadata. Numbers
count up from zero, starts never decrease and lie before the end of the run, and all endpoints are
ground stations. The last two fields are kept as they stand.
-/

namespace Multicast
open Std Text

namespace Schedule

def readField {α : Type} (read? : List Char → Option α) (field : String) (text : List Char) :
    Except ScheduleFault α :=
  match read? (trim text) with
  | none => .error (.invalidNumber field text)
  | some value => .ok value

def unquote (text : List Char) : List Char :=
  let started := (trim text).dropWhile (· = '"')
  (started.reverse.dropWhile (· = '"')).reverse

def readMembers (text : List Char) : Except ScheduleFault (List NodeId) :=
  (words (unquote text)).mapM (readField readUInt32? "destination node")

/-- Destinations that are as many as the field before them says, all different, and not none. -/
def readDestinations (memberCount : Nat) (text : List Char) : Except ScheduleFault NodeSet := do
  let listed ← readMembers text
  let destinations := ExtTreeSet.ofList listed
  if listed.length ≠ memberCount ∨ destinations.size ≠ memberCount then
    throw (.memberCountMismatch memberCount destinations.size)
  if destinations.isEmpty then
    throw .noDestinations
  return destinations

def readRate (text : List Char) : Except ScheduleFault Float := do
  let rate ← readField Decimal.readFloat? "target rate" text
  if !rate.isFinite || rate ≤ 0.0 then
    throw .nonPositiveRate
  return rate

def invalidEndpoint? (roles : NodeRoles) (source : NodeId) (destinations : NodeSet) :
    Option NodeId :=
  (source :: destinations.toList).find? fun node => !roles.isGroundStation node

def readFields (roles : NodeRoles) (finish expected previous : Nat) :
    List (List Char) → Except ScheduleFault Request
  | [idField, sourceField, countField, members, rateField, startField, durationField, parameters,
      metadata] => do
    let id ← readField readUInt64? "id" idField
    if id ≠ expected then
      throw (.idNotAscending expected id)
    let source ← readField readUInt32? "source node" sourceField
    let memberCount ← readField readUInt64? "member count" countField
    let destinations ← readDestinations memberCount members
    let targetRate ← readRate rateField
    let start ← readField readUInt64? "start time" startField
    let duration ← readField readUInt64? "duration" durationField
    if start < previous then
      throw (.startNotAscending previous start)
    if source ∈ destinations then
      throw (.sourceIsDestination source)
    if let some node := invalidEndpoint? roles source destinations then
      throw (.invalidEndpoint node)
    if finish ≤ start then
      throw (.startAfterEnd start finish)
    return {
      id, source, destinations, targetRate, start, duration
      parameters := String.ofList parameters
      metadata := String.ofList metadata }
  | fields => .error (.fieldCount fields.length)

/-- The requests of the lines from the given number on, of which the first carries the expected id
and starts no earlier than the previous one. -/
def readLines (roles : NodeRoles) (finish : Nat) (number expected previous : Nat) :
    List Line → Except ScheduleError (List Request)
  | [] => .ok []
  | none :: _ => .error (.line number (.unreadable invalidUtf8))
  | some text :: rest =>
    if isAllBlank text then readLines roles finish (number + 1) expected previous rest
    else match readFields roles finish expected previous (text.splitOn ',') with
      | .error fault => .error (.line number fault)
      | .ok request =>
        match readLines roles finish (number + 1) (expected + 1) request.start rest with
        | .error error => .error error
        | .ok requests => .ok (request :: requests)

def read (bytes : List UInt8) (roles : NodeRoles) (finish : Nat) :
    Except ScheduleError (List Request) :=
  readLines roles finish 1 0 0 (lines bytes)

end Schedule
end Multicast
