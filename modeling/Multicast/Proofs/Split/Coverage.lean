import Multicast.Proofs.Request
import Multicast.Proofs.Split.Parts
import Multicast.Proofs.Split.Tag
import Mathlib.Data.List.Pairwise

/-!
Coverage of a schedule. The parts of a schedule serve each request at each of its instants and at
each of its destinations exactly once, and serve nothing else.
-/

namespace Multicast
namespace Request

theorem PartOf.originId? (part request : Request) (kept : part.PartOf request)
    (numbered : request.id < UInt64.size) : part.originId? = some request.id := by
  unfold Request.originId?
  rw [kept.metadata]
  exact OriginTag.read?_tag request.metadata request.id numbered

/-- Parts of one request have no instant or no destination in common. -/
def ApartIfSiblings (one other : Request) : Prop := one.originId? = other.originId? → one.Apart other

instance : Std.Symm ApartIfSiblings where
  symm _ _ apart siblings := (apart siblings.symm).symm

theorem apart_of_each (interval : Nat) (state : Nat → Snapshot) (remaining index : Nat)
    (requests : List Request) (slices : List (List Request))
    (distinct : requests.Pairwise fun one other => one.id ≠ other.id)
    (numbered : ∀ request ∈ requests, request.id < UInt64.size)
    (sliced : List.Forall₂ (Slices interval state remaining index) requests slices) :
    slices.flatten.Pairwise ApartIfSiblings := by
  induction sliced with
  | nil => exact .nil
  | @cons request own requests slices first others ih =>
    obtain ⟨different, distinct⟩ := List.pairwise_cons.1 distinct
    obtain ⟨bounded, numbered⟩ := List.forall_mem_cons.1 numbered
    refine List.pairwise_append.2 ⟨?_, ih distinct numbered, ?_⟩
    · apply (apart_of_slices _ _ _ _ _ _ first).imp
      intro one other apart _
      exact apart
    · intro one here other later siblings
      obtain ⟨request', member, own', sliced', inside⟩ :=
        Traversal.exists_of_mem_flatten _ _ _ others other later
      rw [(partOf_of_slices _ _ _ _ _ _ first one here).originId? _ _ bounded,
        (partOf_of_slices _ _ _ _ _ _ sliced' other inside).originId? _ _ (numbered _ member)]
        at siblings
      exact absurd (Option.some.inj siblings) (different request' member)

theorem existsUnique_of_apart (parts : List Request) (apart : parts.Pairwise ApartIfSiblings)
    (origin : RequestId) (destination : NodeId) (chosen : Request → Prop)
    (inside : ∀ part, chosen part →
      part ∈ parts ∧ part.originId? = some origin ∧ destination ∈ part.destinations)
    (exists_chosen : ∃ part, chosen part)
    (together : ∀ one other, chosen one → chosen other → ¬one.Precedes other) :
    ∃! part, chosen part := by
  obtain ⟨part, taken⟩ := exists_chosen
  refine ⟨part, taken, fun other taken' => ?_⟩
  obtain ⟨member, own, listed⟩ := inside part taken
  obtain ⟨member', own', listed'⟩ := inside other taken'
  by_contra different
  rcases apart.forall member' member different (own'.trans own.symm) with before | after | disjoint
  · exact together other part taken' taken before
  · exact together part other taken taken' after
  · exact disjoint destination listed' listed

/-- Whether an epoch of a run begins at an instant and takes some destination of a request to
another neighbour, or over another interface, than the epoch before. -/
def RegroupedAt {σ : Type} [SnapshotSource σ] (source : σ) (interval finish : Nat)
    (request : Request) (instant : Nat) : Prop :=
  ∃ index before after, instant = (index + 1) * interval ∧ instant < finish ∧
    SnapshotSource.yield source interval index = .ok before ∧
    SnapshotSource.yield source interval (index + 1) = .ok after ∧
    ∃ destination ∈ request.destinations,
      before.way? request.source destination ≠ after.way? request.source destination

end Request

section
variable {σ : Type} [SnapshotSource σ] (requests parts : List Request) (source : σ)
  (interval finish : Nat) (split : splitScheduleOver requests source interval finish = .ok parts)
  (distinct : requests.Pairwise fun one other => one.id ≠ other.id)
  (numbered : ∀ request ∈ requests, request.id < UInt64.size)
include split

theorem regroupedAt_of_regrouped (request : Request) (instant : Nat)
    (regrouped : request.Regrouped interval (SnapshotSource.state source interval) 0
      (0 + laterEpochs interval finish) instant) :
    request.RegroupedAt source interval finish instant := by
  have yields := (slices_of_splitScheduleOver _ _ _ _ _ split).1
  obtain ⟨index, _, before, rfl, differ⟩ := regrouped
  rw [Nat.zero_add] at before
  have spaced : interval ≠ 0 := by
    intro absent
    simp [laterEpochs, absent] at before
  refine ⟨index, _, _, rfl, ?_, yields index (by omega), yields (index + 1) before, differ⟩
  exact ((le_laterEpochs_iff interval finish (index + 1) spaced).1 before).resolve_left (by omega)

include numbered

theorem request_of_part (part : Request) (member : part ∈ parts) :
    ∃ request ∈ requests, part.originId? = some request.id ∧ part.PartOf request ∧
      (part.start = request.start ∨ request.RegroupedAt source interval finish part.start) ∧
      (part.finish = request.finish ∨ request.RegroupedAt source interval finish part.finish) := by
  obtain ⟨request, known, slices, sliced, slice, cut, id, rfl⟩ :=
    mem_splitScheduleOver _ _ _ _ _ split part member
  have kept := Request.partOf_of_slices _ _ _ _ _ _ sliced slice cut
  obtain ⟨start, finish⟩ := Request.boundaries_of_slices _ _ _ _ _ _ sliced slice cut
  refine ⟨request, known, kept.originId? _ _ (numbered request known), { kept with }, ?_, ?_⟩
  · exact start.imp_right (regroupedAt_of_regrouped _ _ _ _ _ split request _)
  · exact finish.imp_right (regroupedAt_of_regrouped _ _ _ _ _ split request _)

include distinct

theorem apart_of_splitScheduleOver : parts.Pairwise Request.ApartIfSiblings := by
  obtain ⟨_, slices, unnumbered, sliced, perm, rfl⟩ := slices_of_splitScheduleOver _ _ _ _ _ split
  have each := Request.apart_of_each _ _ _ _ _ _ distinct numbered sliced
  exact pairwise_renumber unnumbered Request.ApartIfSiblings (fun _ _ apart => Std.Symm.symm _ _ apart)
    (fun _ _ _ _ apart => apart)
    (perm.symm.pairwise each fun apart => Std.Symm.symm _ _ apart)

theorem existsUnique_part_at (request : Request) (member : request ∈ requests) (instant : Nat)
    (started : request.start ≤ instant) (runs : instant < request.finish) (destination : NodeId)
    (listed : destination ∈ request.destinations) :
    ∃! part, part ∈ parts ∧ part.originId? = some request.id ∧ destination ∈ part.destinations ∧
      part.start ≤ instant ∧ instant < part.finish := by
  have apart := apart_of_splitScheduleOver _ _ _ _ _ split distinct numbered
  obtain ⟨slices, sliced, inside⟩ := slices_mem_splitScheduleOver _ _ _ _ _ split request member
  obtain ⟨slice, cut, before, after, served⟩ :=
    Request.exists_part_of_slices _ _ _ _ _ _ sliced instant started runs destination listed
  have kept := Request.partOf_of_slices _ _ _ _ _ _ sliced slice cut
  obtain ⟨id, found⟩ := inside slice cut
  refine Request.existsUnique_of_apart _ apart request.id destination _
    (fun part chosen => ⟨chosen.1, chosen.2.1, chosen.2.2.1⟩)
    ⟨_, found, kept.originId? _ _ (numbered request member), served, before, after⟩ ?_
  rintro one other ⟨_, _, _, _, runs⟩ ⟨_, _, _, started, _⟩ ⟨ended, _⟩
  omega

theorem whole_of_splitScheduleOver (request : Request) (member : request ∈ requests)
    (empty : request.finish ≤ request.start) (part : Request) (inside : part ∈ parts)
    (origin : part.originId? = some request.id) :
    part.start = request.start ∧ part.finish = request.finish := by
  obtain ⟨request', known, slices, sliced, slice, cut, id, rfl⟩ :=
    mem_splitScheduleOver _ _ _ _ _ split part inside
  have kept := Request.partOf_of_slices _ _ _ _ _ _ sliced slice cut
  have same := (kept.originId? _ _ (numbered request' known)).symm.trans origin
  obtain rfl := Request.eq_of_id requests distinct request' request known member
    (Option.some.inj same)
  exact (Request.whole_of_slices _ _ _ _ _ _ sliced empty).1 slice cut

theorem existsUnique_part_whole (request : Request) (member : request ∈ requests)
    (empty : request.finish ≤ request.start) (destination : NodeId)
    (listed : destination ∈ request.destinations) :
    ∃! part, part ∈ parts ∧ part.originId? = some request.id ∧ destination ∈ part.destinations := by
  have apart := apart_of_splitScheduleOver _ _ _ _ _ split distinct numbered
  have whole := whole_of_splitScheduleOver _ _ _ _ _ split distinct numbered request member empty
  obtain ⟨slices, sliced, inside⟩ := slices_mem_splitScheduleOver _ _ _ _ _ split request member
  obtain ⟨slice, cut, served⟩ :=
    (Request.whole_of_slices _ _ _ _ _ _ sliced empty).2 destination listed
  have kept := Request.partOf_of_slices _ _ _ _ _ _ sliced slice cut
  obtain ⟨id, found⟩ := inside slice cut
  refine Request.existsUnique_of_apart _ apart request.id destination _ (fun part chosen => chosen)
    ⟨_, found, kept.originId? _ _ (numbered request member), served⟩ ?_
  rintro one other ⟨inside, origin, _⟩ ⟨inside', origin', _⟩ ⟨_, before⟩
  rw [(whole one inside origin).1, (whole other inside' origin').1] at before
  exact Nat.lt_irrefl _ before

/-- The parts of a schedule cover it once: each instant and destination of a request is served by
one part of it, and nothing else is served. Parts begin and end with their request or where an epoch
regroups its destinations, and are numbered in the order of their starts. -/
theorem splitScheduleOver_covers_once :
    (∀ request ∈ requests, ∀ instant, request.start ≤ instant → instant < request.finish →
      ∀ destination ∈ request.destinations,
        ∃! part, part ∈ parts ∧ part.originId? = some request.id ∧
          destination ∈ part.destinations ∧ part.start ≤ instant ∧ instant < part.finish) ∧
    (∀ part ∈ parts, ∃ request ∈ requests, part.originId? = some request.id ∧
      part.PartOf request ∧
      (part.start = request.start ∨ request.RegroupedAt source interval finish part.start) ∧
      (part.finish = request.finish ∨ request.RegroupedAt source interval finish part.finish)) ∧
    (∀ request ∈ requests, request.finish ≤ request.start →
      (∀ part ∈ parts, part.originId? = some request.id →
        part.start = request.start ∧ part.finish = request.finish) ∧
      ∀ destination ∈ request.destinations,
        ∃! part, part ∈ parts ∧ part.originId? = some request.id ∧
          destination ∈ part.destinations) ∧
    parts.Pairwise (fun one other => one.start ≤ other.start) ∧
    parts.map Request.id = List.range parts.length := by
  refine ⟨?_, ?_, ?_, ?_, ?_⟩
  · exact existsUnique_part_at _ _ _ _ _ split distinct numbered
  · exact request_of_part _ _ _ _ _ split numbered
  · intro request member empty
    exact ⟨whole_of_splitScheduleOver _ _ _ _ _ split distinct numbered request member empty,
      existsUnique_part_whole _ _ _ _ _ split distinct numbered request member empty⟩
  · obtain ⟨_, _, unnumbered, _, _, rfl⟩ := slices_of_splitScheduleOver _ _ _ _ _ split
    exact sorted_renumber unnumbered
  · obtain ⟨_, _, unnumbered, _, _, rfl⟩ := slices_of_splitScheduleOver _ _ _ _ _ split
    rw [map_id_renumber, length_renumber]

end

theorem splitScheduleOver_covers_once_diamond :
    ∃ parts, splitScheduleOver diamondSchedule (.diamond 10 : SnapshotPlan) 10 30 = .ok parts ∧
      (∃! part, part ∈ parts ∧ part.originId? = some 4 ∧ 3 ∈ part.destinations ∧
        part.start ≤ 12 ∧ 12 < part.finish) ∧
      (∃! part, part ∈ parts ∧ part.originId? = some 9 ∧ 3 ∈ part.destinations) ∧
      parts.map Request.id = List.range parts.length := by
  have splits :
      (splitScheduleOver diamondSchedule (.diamond 10 : SnapshotPlan) 10 30).isOk = true := by
    decide +kernel
  cases split : splitScheduleOver diamondSchedule (.diamond 10 : SnapshotPlan) 10 30 with
  | error error =>
    rw [split] at splits
    cases splits
  | ok parts =>
    obtain ⟨covered, _, whole, _, ids⟩ := splitScheduleOver_covers_once diamondSchedule parts _ 10 30
      split (by decide) (by decide)
    exact ⟨parts, rfl, covered _ List.mem_cons_self 12 (by decide) (by decide) 3 (by decide +kernel),
      (whole _ (List.mem_cons_of_mem _ List.mem_cons_self) (by decide)).2 3 (by decide +kernel), ids⟩

end Multicast
