import Multicast.Request
import Multicast.Topology

/-!
What makes a schedule valid: requests are numbered from zero, their starts never decrease, and traffic
goes from ground stations to others of them.
-/

namespace Multicast

namespace Schedule

def NumberedFromZero (requests : List Request) : Prop :=
  requests.map Request.id = List.range requests.length

def StartsAscend (requests : List Request) : Prop :=
  (requests.map Request.start).Pairwise (· ≤ ·)

instance (requests : List Request) : Decidable (NumberedFromZero requests) :=
  inferInstanceAs (Decidable (_ = _))

instance (requests : List Request) : Decidable (StartsAscend requests) :=
  inferInstanceAs (Decidable (List.Pairwise _ _))

end Schedule

namespace Request

def HasValidEndpoints (request : Request) (roles : NodeRoles) : Prop :=
  request.destinations.isEmpty = false ∧ request.destinations.contains request.source = false ∧
    ∀ node ∈ request.source :: request.destinations.toList, roles.isGroundStation node = true

def LiesWithin (request : Request) (finish : Nat) : Prop :=
  1 ≤ request.duration ∧ request.finish ≤ finish

instance (request : Request) (roles : NodeRoles) : Decidable (request.HasValidEndpoints roles) :=
  inferInstanceAs (Decidable (_ ∧ _))

instance (request : Request) (finish : Nat) : Decidable (request.LiesWithin finish) :=
  inferInstanceAs (Decidable (_ ∧ _))

end Request
end Multicast
