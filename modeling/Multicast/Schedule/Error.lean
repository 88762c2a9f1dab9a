import Multicast.Identifier
import Multicast.Text.Quoted

/-!
What can be wrong with a schedule. Every fault names its line, counted from one with the blank lines
counted too.
-/

namespace Multicast
open Text

inductive ScheduleFault where
  | unreadable (reason : String)
  | fieldCount (found : Nat)
  | invalidNumber (field : String) (text : List Char)
  | idNotAscending (expected found : Nat)
  | memberCountMismatch (expected found : Nat)
  | noDestinations
  | nonPositiveRate
  | startNotAscending (previous start : Nat)
  | sourceIsDestination (node : NodeId)
  | invalidEndpoint (node : NodeId)
  | startAfterEnd (start finish : Nat)
deriving DecidableEq

def ScheduleFault.message : ScheduleFault → String
  | .unreadable reason => s!"failed to read: {reason}"
  | .fieldCount found => s!"expected 9 fields, found {found}"
  | .invalidNumber field text => s!"invalid {field} {quote text}"
  | .idNotAscending expected found =>
    s!"id {found} is not ascending by one (expected {expected})"
  | .memberCountMismatch expected found =>
    s!"member count {expected} but {found} destinations listed"
  | .noDestinations => "request has no destinations"
  | .nonPositiveRate => "target rate must be positive"
  | .startNotAscending previous start =>
    s!"start time {start} is before the previous start {previous}"
  | .sourceIsDestination node => s!"source {node} is also a destination"
  | .invalidEndpoint node => s!"node {node} is not a valid endpoint"
  | .startAfterEnd start finish =>
    s!"start time {start} is not before the simulation end {finish}"

inductive ScheduleError where
  | unopened (path reason : String)
  | line (number : Nat) (fault : ScheduleFault)
deriving DecidableEq

def ScheduleError.message : ScheduleError → String
  | .unopened path reason => s!"failed to read schedule {path}: {reason}"
  | .line number fault => s!"line {number}: {fault.message}"

end Multicast
