import Multicast.Proofs.Schedule.Roundtrip
import Multicast.Proofs.Split.Coverage

/-!
Split schedules. A part keeps the rate and the free parameters of its request, has some of its
destinations, begins with it or with an epoch of the run, and its metadata ends with a number. Main
statement: the parts of a schedule that was read are a schedule again, which is read as it is written.
-/

namespace Multicast
open Std Text

namespace Request

theorem lt_size_of_slices (interval : Nat) (state : Nat → Snapshot) (remaining index : Nat)
    (request : Request) (parts : List Request)
    (sliced : request.Slices interval state remaining index parts)
    (start : request.start < UInt64.size) (duration : request.duration < UInt64.size) :
    ∀ part ∈ parts, part.start < UInt64.size ∧ part.duration < UInt64.size := by
  have whole (request : Request) (snapshot : Snapshot) (parts : List Request)
      (split : request.splitAtSource snapshot = .ok parts) (start : request.start < UInt64.size)
      (duration : request.duration < UInt64.size) :
      ∀ part ∈ parts, part.start < UInt64.size ∧ part.duration < UInt64.size := by
    intro part member
    obtain ⟨_, rfl, _⟩ := mem_splitAtSource request snapshot parts split part member
    exact ⟨start, duration⟩
  have last : lastInstant < UInt64.size := by decide
  have finish_le (request : Request) : request.finish ≤ lastInstant := Nat.min_le_right _ _
  induction sliced with
  | last index request parts split => exact whole request _ parts split start duration
  | waiting remaining index request parts early later ih => exact ih start duration
  | closed remaining index request parts started ended split =>
    exact whole request _ parts split start duration
  | kept remaining index request parts groups started runs found unchanged later ih =>
    exact ih start duration
  | cut remaining index request parts rest groups changed started runs found found' differ split
      later ih =>
    have bounded := finish_le request
    have before : (request.before ((index + 1) * interval)).duration < UInt64.size := by
      change (index + 1) * interval - request.start < UInt64.size
      omega
    have since : (request.since ((index + 1) * interval)).duration < UInt64.size := by
      change request.finish - (index + 1) * interval < UInt64.size
      omega
    intro part member
    rcases List.mem_append.1 member with first | second
    · exact whole (request.before _) _ parts split start before part first
    · exact ih (Nat.lt_of_lt_of_le runs (by omega)) since part second

section
variable (part request : Request) (kept : part.PartOf request)
include kept

theorem PartOf.hasValidEndpoints (roles : NodeRoles) (valid : request.HasValidEndpoints roles) :
    part.HasValidEndpoints roles := by
  obtain ⟨_, _, station, stations⟩ := (request.hasValidEndpoints_iff roles).1 valid
  rw [← kept.source] at station
  exact (part.hasValidEndpoints_iff roles).2 ⟨kept.inhabited, kept.away, station,
    fun node member => stations node (kept.subset node member)⟩

theorem PartOf.plain (plain : request.Plain) : part.Plain := by
  have tagged (character : Char) (absent : character ∉ request.metadata.toList)
      (other : character ≠ ';' ∧ character ∉ OriginTag.key ∧ character ≠ '=' ∧
        isDigit character = false) : character ∉ part.metadata.toList := by
    obtain ⟨semicolon, outside, equals, letter⟩ := other
    rw [kept.metadata]
    intro member
    rcases OriginTag.mem_tag _ _ _ member with same | old | new
    · exact semicolon same
    · exact absent old
    · rcases OriginTag.mem_piece _ _ new with inKey | same | digit
      · exact outside inKey
      · exact equals same
      · rw [letter] at digit
        cases digit
  refine ⟨?_, tagged ',' plain.metadata.1 (by decide), tagged '\n' plain.metadata.2 (by decide)⟩
  rw [kept.parameters]
  exact plain.parameters

theorem PartOf.unreturned : part.metadata.toList.getLast? ≠ some '\r' := by
  rw [kept.metadata]
  intro ends
  exact absurd (OriginTag.isDigit_of_getLast?_tag _ _ '\r' ends) (by decide)

end
end Request

namespace Schedule

section
variable {σ : Type} [SnapshotSource σ] (requests parts : List Request) (source : σ)
  (interval finish : Nat) (split : splitScheduleOver requests source interval finish = .ok parts)
include split

theorem numbered_of_split : NumberedFromZero parts := by
  obtain ⟨_, _, unnumbered, _, _, rfl⟩ := slices_of_splitScheduleOver _ _ _ _ _ split
  exact numberedFromZero_renumber unnumbered

theorem startsAscend_of_split : StartsAscend parts := by
  obtain ⟨_, _, unnumbered, _, _, rfl⟩ := slices_of_splitScheduleOver _ _ _ _ _ split
  exact startsAscend_renumber unnumbered

theorem start_lt_of_split (numbered : ∀ request ∈ requests, request.id < UInt64.size)
    (inTime : ∀ request ∈ requests, request.start < finish) :
    ∀ part ∈ parts, part.start < finish := by
  intro part member
  obtain ⟨request, listed, _, _, start | ⟨_, _, _, _, before, _⟩, _⟩ :=
    request_of_part _ _ _ _ _ split numbered part member
  · rw [start]
    exact inTime request listed
  · exact before

theorem fits_of_split (fits : ∀ request ∈ requests, request.Fits) (part : Request)
    (member : part ∈ parts) (numbered : part.id < UInt64.size) : part.Fits := by
  obtain ⟨request, listed, slices, sliced, slice, cut, id, same⟩ :=
    mem_splitScheduleOver _ _ _ _ _ split part member
  have own := fits request listed
  have kept := Request.partOf_of_slices _ _ _ _ _ _ sliced slice cut
  obtain ⟨start, duration⟩ :=
    Request.lt_size_of_slices _ _ _ _ _ _ sliced own.start own.duration slice cut
  subst same
  refine ⟨numbered, ?_, fun node inside => own.destinations node (kept.subset node inside), start,
    duration⟩
  change slice.source < UInt32.size
  rw [kept.source]
  exact own.source

end

/-- The parts of a schedule that was read are read again as they are written, if they are no more than
there are numbers for them. -/
theorem read_writeBytes_of_split {σ : Type} [SnapshotSource σ] (bytes : List UInt8)
    (roles : NodeRoles) (finish interval : Nat) (source : σ) (requests parts : List Request)
    (accepted : read bytes roles finish = .ok requests)
    (split : splitScheduleOver requests source interval finish = .ok parts)
    (counted : parts.length ≤ UInt64.size)
    (rates : ∀ request ∈ requests, Decimal.ReadsBack request.targetRate) :
    read (writeBytes parts) roles finish = .ok parts := by
  obtain ⟨_, rules⟩ := rules_of_readLines roles finish 1 0 0 (lines bytes)
    (fun text member => notMem_of_mem_lines bytes text member) requests accepted
  have fits := fun request member => (rules request member).1
  have known := fun request member => (fits request member).id
  have inTime := fun request member => (rules request member).2.1.inTime
  have numbered := numbered_of_split requests parts source interval finish split
  have origin (part : Request) (member : part ∈ parts) :
      ∃ request ∈ requests, part.PartOf request := by
    obtain ⟨request, listed, _, kept, _⟩ := request_of_part _ _ _ _ _ split known part member
    exact ⟨request, listed, kept⟩
  refine read_writeBytes_of_valid roles finish parts numbered
    (startsAscend_of_split requests parts source interval finish split) (fun part member => ?_)
    (fun part member => ?_) (fun part member => ?_) (fun part member => ?_) fun part member => ?_
  · have listed : part.id ∈ List.range parts.length :=
      numbered ▸ List.mem_map.2 ⟨part, member, rfl⟩
    exact fits_of_split requests parts source interval finish split fits part member
      (Nat.lt_of_lt_of_le (List.mem_range.1 listed) counted)
  · obtain ⟨request, listed, kept⟩ := origin part member
    have own := (rules request listed).2.1
    refine ⟨kept.hasValidEndpoints part request roles own.endpoints, ?_, ?_,
      start_lt_of_split requests parts source interval finish split known inTime part member⟩
    · rw [kept.targetRate]
      exact own.finite
    · rw [kept.targetRate]
      exact own.positive
  · obtain ⟨request, listed, kept⟩ := origin part member
    exact kept.plain part request (rules request listed).2.2
  · obtain ⟨request, _, kept⟩ := origin part member
    exact kept.unreturned part request
  · obtain ⟨request, listed, kept⟩ := origin part member
    rw [kept.targetRate]
    exact rates request listed

def forkedSchedule : List Request :=
  [⟨0, 0, (∅ : NodeSet).insertMany [3, 1], 10.0, 5, 20, "", "origin_id=7; ;kind=a\r"⟩,
    ⟨1, 0, (∅ : NodeSet).insertMany [1], 2.5, 12, 0, "", ""⟩]

def forkedParts : List Request :=
  [⟨0, 0, (∅ : NodeSet).insertMany [1, 3], 10.0, 5, 5, "", "kind=a\r;origin_id=0"⟩,
    ⟨1, 0, (∅ : NodeSet).insertMany [1], 2.5, 12, 0, "", "origin_id=1"⟩,
    ⟨0, 0, (∅ : NodeSet).insertMany [1], 10.0, 10, 15, "", "kind=a\r;origin_id=0"⟩,
    ⟨0, 0, (∅ : NodeSet).insertMany [3], 10.0, 10, 15, "", "kind=a\r;origin_id=0"⟩]

theorem split_forkedSchedule :
    splitScheduleOver forkedSchedule (.diamond 10 : SnapshotPlan) 10 30 = .ok (renumber forkedParts) := by
  have walked : partsOver 10 2 10 (.diamond 10 : SnapshotPlan) (.diamond 0 1) forkedSchedule =
      .ok forkedParts := by decide +kernel
  change (do
    let parts ← partsOver 10 2 10 (.diamond 10 : SnapshotPlan) (.diamond 0 1) forkedSchedule
    return renumber parts) = _
  rw [walked]
  rfl

theorem read_writeBytes_of_split_forked :
    read (encodeUtf8 "0,0,2,3 1,10,5,20,,origin_id=7; ;kind=a\r\r\n1,0,1,1,2.5,12,0,,")
        (.terrestrial 4) 30 = .ok forkedSchedule ∧
      splitScheduleOver forkedSchedule (.diamond 10 : SnapshotPlan) 10 30 =
        .ok (renumber forkedParts) ∧
      read (writeBytes (renumber forkedParts)) (.terrestrial 4) 30 = .ok (renumber forkedParts) := by
  have accepted : read (encodeUtf8
      "0,0,2,3 1,10,5,20,,origin_id=7; ;kind=a\r\r\n1,0,1,1,2.5,12,0,,") (.terrestrial 4) 30 =
      .ok forkedSchedule := by decide +kernel
  have counted : (renumber forkedParts).length ≤ UInt64.size := by
    rw [length_renumber]
    decide
  exact ⟨accepted, split_forkedSchedule, read_writeBytes_of_split _ _ _ _ _ _ _ accepted
    split_forkedSchedule counted (by decide +kernel)⟩

end Schedule
end Multicast
