import Multicast.Proofs.Request
import Multicast.Proofs.Simulation.Effects
import Mathlib.Data.List.Nodup
import Mathlib.Data.List.Pairwise
import Mathlib.Data.List.ProdSigma

/-!
Flights. The copies in flight, together with the log of what was delivered, keep to rules: copies of
one packet have no position in common, have positions of destinations only, and none of a destination
that has received the packet. Copies are lost, sent on, taken and emitted under these rules.
-/

namespace Multicast
open Std

structure Delivery where
  request : RequestId
  sequence : UInt64
  node : NodeId
deriving DecidableEq

theorem Delivery.length_le (deliveries : List Delivery) (request : RequestId) (sent : Nat)
    (destinations : NodeSet) (once : deliveries.Nodup)
    (placed : ∀ delivery ∈ deliveries, delivery.request = request ∧
      delivery.sequence.toNat < sent ∧ delivery.node ∈ destinations) :
    deliveries.length ≤ sent * destinations.size := by
  have distinct : (deliveries.map fun delivery => (delivery.sequence.toNat, delivery.node)).Nodup := by
    refine List.Nodup.map_on ?_ once
    rintro ⟨_, _, _⟩ listed ⟨_, _, _⟩ listed' same
    rw [Prod.mk.injEq] at same
    simp only [Delivery.mk.injEq]
    exact ⟨(placed _ listed).1.trans (placed _ listed').1.symm, UInt64.toNat_inj.1 same.1, same.2⟩
  have within : (deliveries.map fun delivery => (delivery.sequence.toNat, delivery.node)) ⊆
      List.range sent ×ˢ destinations.toList := by
    intro pair listed
    obtain ⟨delivery, known, rfl⟩ := List.mem_map.1 listed
    obtain ⟨_, numbered, inside⟩ := placed delivery known
    exact List.mem_product.2 ⟨List.mem_range.2 numbered, ExtTreeSet.mem_toList.2 inside⟩
  calc
    deliveries.length = _ := (List.length_map ..).symm
    _ ≤ (List.range sent ×ˢ destinations.toList).length :=
      (List.subperm_of_subset distinct within).length_le
    _ = sent * destinations.size := by
      rw [List.length_product, List.length_range, ExtTreeSet.length_toList]

/-- Two copies are of different packets or have no position in common. -/
def Copy.Apart (one other : Copy) : Prop :=
  one.request = other.request → one.sequence = other.sequence →
    one.bitstring.Disjoint other.bitstring

instance : Std.Symm Copy.Apart where
  symm _ _ apart request sequence := (apart request.symm sequence.symm).symm

def Request.Addresses (request : Request) (positions : BitPositions) (bitstring : Bitstring) : Prop :=
  ∀ position, bitstring.test position = true →
    ∃ destination ∈ request.destinations, positions.positionOf? destination = some position

/-- The rules of copies in flight and of deliveries, where so many packets of each request were
sent. -/
structure Flight (requests : List Request) (positions : BitPositions) (sent : RequestId → Nat)
    (log : List Delivery) (copies : List Copy) : Prop where
  apart : copies.Pairwise Copy.Apart
  inhabited : ∀ copy ∈ copies, copy.bitstring.isZero = false
  addressed : ∀ copy ∈ copies, ∃ request ∈ requests, copy.request = request.id ∧
    request.Addresses positions copy.bitstring
  numbered : ∀ copy ∈ copies, copy.sequence.toNat < sent copy.request
  unreceived : ∀ copy ∈ copies, ∀ delivery ∈ log, delivery.request = copy.request →
    delivery.sequence = copy.sequence → ∀ position,
      positions.positionOf? delivery.node = some position → copy.bitstring.test position = false
  once : log.Nodup
  known : ∀ delivery ∈ log, ∃ request ∈ requests, delivery.request = request.id ∧
    delivery.node ∈ request.destinations
  logged : ∀ delivery ∈ log, delivery.sequence.toNat < sent delivery.request

namespace Flight
variable {requests : List Request} {positions : BitPositions} {sent : RequestId → Nat}
  {log : List Delivery} {copies : List Copy}

theorem nothing (requests : List Request) (positions : BitPositions) (sent : RequestId → Nat) :
    Flight requests positions sent [] [] where
  apart := .nil
  inhabited := by simp
  addressed := by simp
  numbered := by simp
  unreceived := by simp
  once := .nil
  known := by simp
  logged := by simp

theorem of_subperm (flight : Flight requests positions sent log copies) (left : List Copy)
    (subperm : left.Subperm copies) : Flight requests positions sent log left where
  apart := by
    obtain ⟨kept, perm, sublist⟩ := subperm
    exact perm.pairwise (flight.apart.sublist sublist) fun apart => Std.Symm.symm _ _ apart
  inhabited copy member := flight.inhabited copy (subperm.subset member)
  addressed copy member := flight.addressed copy (subperm.subset member)
  numbered copy member := flight.numbered copy (subperm.subset member)
  unreceived copy member := flight.unreceived copy (subperm.subset member)
  once := flight.once
  known := flight.known
  logged := flight.logged

theorem mono (flight : Flight requests positions sent log copies) (sent' : RequestId → Nat)
    (more : ∀ request, sent request ≤ sent' request) :
    Flight requests positions sent' log copies where
  apart := flight.apart
  inhabited := flight.inhabited
  addressed := flight.addressed
  numbered copy member := Nat.lt_of_lt_of_le (flight.numbered copy member) (more copy.request)
  unreceived := flight.unreceived
  once := flight.once
  known := flight.known
  logged delivery member :=
    Nat.lt_of_lt_of_le (flight.logged delivery member) (more delivery.request)

/-- Copies may join that share the positions of a copy which keeps to the rules itself. -/
theorem join (flight : Flight requests positions sent log copies) (whole : Copy)
    (apart : ∀ copy ∈ copies, whole.Apart copy)
    (addressed : ∃ request ∈ requests, whole.request = request.id ∧
      request.Addresses positions whole.bitstring)
    (numbered : whole.sequence.toNat < sent whole.request)
    (unreceived : ∀ delivery ∈ log, delivery.request = whole.request →
      delivery.sequence = whole.sequence → ∀ position,
        positions.positionOf? delivery.node = some position →
          whole.bitstring.test position = false)
    (parts : List Copy) (split : Copy.Split parts whole) :
    Flight requests positions sent log (parts ++ copies) where
  apart := by
    refine List.pairwise_append.2 ⟨?_, flight.apart, ?_⟩
    · exact split.disjoint.imp fun disjoint _ _ => disjoint
    · intro part member copy listed request sequence position inside
      exact apart copy listed ((split.request part member).symm.trans request)
        ((split.sequence part member).symm.trans sequence) position
        (split.within part member position inside)
  inhabited := by
    intro copy member
    rcases List.mem_append.1 member with new | old
    · exact split.inhabited copy new
    · exact flight.inhabited copy old
  addressed := by
    intro copy member
    rcases List.mem_append.1 member with new | old
    · obtain ⟨request, known, same, addresses⟩ := addressed
      refine ⟨request, known, (split.request copy new).trans same, fun position inside => ?_⟩
      exact addresses position (split.within copy new position inside)
    · exact flight.addressed copy old
  numbered := by
    intro copy member
    rcases List.mem_append.1 member with new | old
    · rwa [split.request copy new, split.sequence copy new]
    · exact flight.numbered copy old
  unreceived := by
    intro copy member delivery logged request sequence position own
    rcases List.mem_append.1 member with new | old
    · have received := unreceived delivery logged (request.trans (split.request copy new))
        (sequence.trans (split.sequence copy new)) position own
      by_contra inside
      rw [split.within copy new position (by simpa using inside)] at received
      cases received
    · exact flight.unreceived copy old delivery logged request sequence position own
  once := flight.once
  known := flight.known
  logged := flight.logged

theorem relay (whole : Copy) (flight : Flight requests positions sent log (whole :: copies))
    (parts : List Copy) (split : Copy.Split parts whole) :
    Flight requests positions sent log (parts ++ copies) := by
  have rest := flight.of_subperm copies List.Subperm.cons_self
  exact rest.join whole (List.pairwise_cons.1 flight.apart).1
    (flight.addressed whole List.mem_cons_self) (flight.numbered whole List.mem_cons_self)
    (flight.unreceived whole List.mem_cons_self) parts split

theorem emit (flight : Flight requests positions sent log copies) (sent' : RequestId → Nat)
    (more : ∀ request, sent request ≤ sent' request) (request : Request)
    (known : request ∈ requests) (counted : sent request.id < sent' request.id)
    (bounded : sent request.id < UInt64.size) (bitstring : Bitstring)
    (addresses : request.Addresses positions bitstring) (parts : List Copy)
    (split : Copy.Split parts ⟨request.id, UInt64.ofNat (sent request.id), bitstring⟩) :
    Flight requests positions sent' log (parts ++ copies) := by
  have number : (UInt64.ofNat (sent request.id)).toNat = sent request.id :=
    UInt64.toNat_ofNat_of_lt' bounded
  -- Nothing is known of this packet yet.
  have fresh (other : UInt64) (before : other.toNat < sent request.id) :
      other ≠ UInt64.ofNat (sent request.id) := by
    intro same
    rw [same] at before
    omega
  refine (flight.mono sent' more).join _ ?_ ⟨request, known, rfl, addresses⟩ (by rwa [number]) ?_
    parts split
  · intro copy listed same sequence
    have before := flight.numbered copy listed
    rw [← same] at before
    exact absurd sequence.symm (fresh copy.sequence before)
  · intro delivery listed same sequence
    have before := flight.logged delivery listed
    rw [same] at before
    exact absurd sequence (fresh delivery.sequence before)

theorem take (flight : Flight requests positions sent log copies) (delivery : Delivery)
    (fresh : delivery ∉ log)
    (known : ∃ request ∈ requests, delivery.request = request.id ∧
      delivery.node ∈ request.destinations)
    (numbered : delivery.sequence.toNat < sent delivery.request)
    (outside : ∀ copy ∈ copies, delivery.request = copy.request →
      delivery.sequence = copy.sequence → ∀ position,
        positions.positionOf? delivery.node = some position →
          copy.bitstring.test position = false) :
    Flight requests positions sent (log ++ [delivery]) copies where
  apart := flight.apart
  inhabited := flight.inhabited
  addressed := flight.addressed
  numbered := flight.numbered
  unreceived := by
    intro copy member other logged
    rcases List.mem_append.1 logged with old | new
    · exact flight.unreceived copy member other old
    · rw [List.mem_singleton.1 new]
      exact outside copy member
  once := by
    refine List.nodup_append.2 ⟨flight.once, List.pairwise_singleton _ _, ?_⟩
    intro one old other new
    rw [List.mem_singleton.1 new]
    intro same
    rw [same] at old
    exact fresh old
  known := by
    intro other logged
    rcases List.mem_append.1 logged with old | new
    · exact flight.known other old
    · rw [List.mem_singleton.1 new]
      exact known
  logged := by
    intro other logged
    rcases List.mem_append.1 logged with old | new
    · exact flight.logged other old
    · rw [List.mem_singleton.1 new]
      exact numbered

/-- A copy is taken at the node of one of its positions and sent on to the others. -/
theorem deliver (whole : Copy) (flight : Flight requests positions sent log (whole :: copies))
    (parts : List Copy) (split : Copy.Split parts whole) (node : NodeId) (position : Nat)
    (own : positions.positionOf? node = some position)
    (inside : whole.bitstring.test position = true)
    (outside : ∀ part ∈ parts, part.bitstring.test position = false)
    (known : ∃ request ∈ requests, whole.request = request.id ∧ node ∈ request.destinations) :
    Flight requests positions sent (log ++ [⟨whole.request, whole.sequence, node⟩])
      (parts ++ copies) := by
  refine (flight.relay whole parts split).take _ ?_ known (flight.numbered whole List.mem_cons_self) ?_
  · intro logged
    have lacking := flight.unreceived whole List.mem_cons_self _ logged rfl rfl position own
    rw [inside] at lacking
    cases lacking
  · intro copy member request sequence other own'
    obtain rfl : position = other := Option.some.inj (own.symm.trans own')
    rcases List.mem_append.1 member with new | old
    · exact outside copy new
    · exact (List.pairwise_cons.1 flight.apart).1 copy old request sequence position inside

theorem deliveries_le (flight : Flight requests positions sent log copies)
    (distinct : requests.Pairwise fun one other => one.id ≠ other.id) (request : Request)
    (member : request ∈ requests) :
    log.countP (·.request = request.id) ≤ sent request.id * request.destinations.size := by
  rw [List.countP_eq_length_filter]
  refine Delivery.length_le _ request.id _ _ (flight.once.filter _) fun delivery listed => ?_
  obtain ⟨logged, same⟩ := List.mem_filter.1 listed
  have same : delivery.request = request.id := by simpa using same
  obtain ⟨request', known, origin, inside⟩ := flight.known delivery logged
  obtain rfl := Request.eq_of_id requests distinct request' request known member
    (origin.symm.trans same)
  exact ⟨same, same ▸ flight.logged delivery logged, inside⟩

end Flight
end Multicast
