import Multicast.Proofs.Split.Slices

/-!
Parts of one request. A part keeps what its request sends and stays inside it. Main statements: the
parts of a request cover its time and its destinations once, and a part begins or ends inside its
request only where an epoch changes a first hop.
-/

namespace Multicast
namespace Request

/-- What a part has in common with the request it is a part of. -/
structure PartOf (part request : Request) : Prop where
  source : part.source = request.source
  targetRate : part.targetRate = request.targetRate
  parameters : part.parameters = request.parameters
  metadata : part.metadata = OriginTag.tag request.metadata request.id
  subset : ∀ destination ∈ part.destinations, destination ∈ request.destinations
  inhabited : ∃ destination, destination ∈ part.destinations
  away : part.source ∉ part.destinations
  start_le : request.start ≤ part.start
  finish_le : part.finish ≤ request.finish

theorem finish_before (request : Request) (instant : Nat) (started : request.start < instant)
    (runs : instant < request.finish) : (request.before instant).finish = instant := by
  unfold finish instantAfter at runs
  simp only [finish, before, instantAfter]
  omega

theorem finish_since (request : Request) (instant : Nat) (runs : instant < request.finish) :
    (request.since instant).finish = request.finish := by
  unfold finish instantAfter at runs
  simp only [finish, since, instantAfter]
  omega

theorem partOf_of_split (request : Request) (snapshot : Snapshot) (parts : List Request)
    (split : request.splitAtSource snapshot = .ok parts) (part : Request) (member : part ∈ parts) :
    part.PartOf request ∧ part.start = request.start ∧ part.finish = request.finish := by
  obtain ⟨destinations, rfl, away, inhabited, way, behind⟩ :=
    mem_splitAtSource request snapshot parts split part member
  refine ⟨⟨rfl, rfl, rfl, rfl, ?_, inhabited, away, Nat.le_refl _, Nat.le_refl _⟩, rfl, rfl⟩
  exact fun destination inside => ((behind destination).1 inside).1

theorem PartOf.of_before (part request : Request) (instant : Nat) (started : request.start < instant)
    (runs : instant < request.finish) (kept : part.PartOf (request.before instant)) :
    part.PartOf request := by
  have finish := kept.finish_le
  rw [request.finish_before instant started runs] at finish
  exact { kept with finish_le := by omega }

theorem PartOf.of_since (part request : Request) (instant : Nat) (started : request.start < instant)
    (runs : instant < request.finish) (kept : part.PartOf (request.since instant)) :
    part.PartOf request := by
  have start : instant ≤ part.start := kept.start_le
  have finish := kept.finish_le
  rw [request.finish_since instant runs] at finish
  exact { kept with start_le := by omega, finish_le := finish }

variable (interval : Nat) (state : Nat → Snapshot) (remaining index : Nat) (request : Request)
  (parts : List Request)

theorem partOf_of_slices (sliced : request.Slices interval state remaining index parts) :
    ∀ part ∈ parts, part.PartOf request := by
  induction sliced with
  | last index request parts split =>
    exact fun part member => (partOf_of_split request _ parts split part member).1
  | waiting remaining index request parts early later ih => exact ih
  | closed remaining index request parts started ended split =>
    exact fun part member => (partOf_of_split request _ parts split part member).1
  | kept remaining index request parts groups started runs found unchanged later ih => exact ih
  | cut remaining index request parts rest groups changed started runs found found' differ split
      later ih =>
    intro part member
    rcases List.mem_append.1 member with first | second
    · exact .of_before part request _ started runs
        (partOf_of_split (request.before _) _ parts split part first).1
    · exact .of_since part request _ started runs (ih part second)

theorem exists_part_of_slices (sliced : request.Slices interval state remaining index parts)
    (instant : Nat) (started : request.start ≤ instant) (runs : instant < request.finish)
    (destination : NodeId) (listed : destination ∈ request.destinations) :
    ∃ part ∈ parts, part.start ≤ instant ∧ instant < part.finish ∧
      destination ∈ part.destinations := by
  have served (request : Request) (snapshot : Snapshot) (parts : List Request)
      (split : request.splitAtSource snapshot = .ok parts) (started : request.start ≤ instant)
      (runs : instant < request.finish) (listed : destination ∈ request.destinations) :
      ∃ part ∈ parts, part.start ≤ instant ∧ instant < part.finish ∧
        destination ∈ part.destinations := by
    obtain ⟨part, member, inside⟩ := exists_part request snapshot parts split destination listed
    obtain ⟨_, start, finish⟩ := partOf_of_split request snapshot parts split part member
    exact ⟨part, member, by omega, by omega, inside⟩
  induction sliced with
  | last index request parts split => exact served request _ parts split started runs listed
  | waiting remaining index request parts early later ih => exact ih started runs listed
  | closed remaining index request parts _ ended split =>
    exact served request _ parts split started runs listed
  | kept remaining index request parts groups _ _ found unchanged later ih =>
    exact ih started runs listed
  | cut remaining index request parts rest groups changed started' runs' found found' differ split
      later ih =>
    have finish := request.finish_before _ started' runs'
    have finish' := request.finish_since _ runs'
    by_cases early : instant < (index + 1) * interval
    · obtain ⟨part, member, inside⟩ :=
        served (request.before ((index + 1) * interval)) _ parts split started (by omega) listed
      exact ⟨part, List.mem_append_left _ member, inside⟩
    · obtain ⟨part, member, inside⟩ := ih (Nat.le_of_not_lt early) (by omega) listed
      exact ⟨part, List.mem_append_right _ member, inside⟩

theorem whole_of_slices (sliced : request.Slices interval state remaining index parts)
    (empty : request.finish ≤ request.start) :
    (∀ part ∈ parts, part.start = request.start ∧ part.finish = request.finish) ∧
      ∀ destination ∈ request.destinations, ∃ part ∈ parts, destination ∈ part.destinations := by
  induction sliced with
  | last index request parts split =>
    exact ⟨fun part member => (partOf_of_split request _ parts split part member).2,
      exists_part request _ parts split⟩
  | waiting remaining index request parts early later ih => exact ih empty
  | closed remaining index request parts started ended split =>
    exact ⟨fun part member => (partOf_of_split request _ parts split part member).2,
      exists_part request _ parts split⟩
  | kept => omega
  | cut => omega

def Precedes (one other : Request) : Prop := one.finish ≤ other.start ∧ one.start < other.start

def Apart (one other : Request) : Prop :=
  one.Precedes other ∨ other.Precedes one ∨
    ∀ destination ∈ one.destinations, destination ∉ other.destinations

theorem Apart.symm (one other : Request) (apart : one.Apart other) : other.Apart one := by
  rcases apart with before | after | disjoint
  · exact .inr (.inl before)
  · exact .inl after
  · exact .inr (.inr fun destination inside inside' => disjoint destination inside' inside)

theorem apart_of_slices (sliced : request.Slices interval state remaining index parts) :
    parts.Pairwise Apart := by
  have disjoint (request : Request) (snapshot : Snapshot) (parts : List Request)
      (split : request.splitAtSource snapshot = .ok parts) : parts.Pairwise Apart :=
    (disjoint_splitAtSource request snapshot parts split).imp fun disjoint => .inr (.inr disjoint)
  induction sliced with
  | last index request parts split => exact disjoint request _ parts split
  | waiting remaining index request parts early later ih => exact ih
  | closed remaining index request parts started ended split => exact disjoint request _ parts split
  | kept remaining index request parts groups started runs found unchanged later ih => exact ih
  | cut remaining index request parts rest groups changed started runs found found' differ split
      later ih =>
    refine List.pairwise_append.2 ⟨disjoint _ _ parts split, ih, ?_⟩
    intro one first other second
    obtain ⟨_, start, finish⟩ := partOf_of_split _ _ parts split one first
    have start' : (index + 1) * interval ≤ other.start :=
      (partOf_of_slices _ _ _ _ _ _ later other second).start_le
    rw [request.finish_before _ started runs] at finish
    have start : one.start = request.start := start
    exact .inl ⟨by omega, by omega⟩

/-- Whether an instant is the begin of an epoch, among the later ones of a range of epochs, in which
some destination of a request has another first hop than in the epoch before. -/
def Regrouped (interval : Nat) (state : Nat → Snapshot) (first last : Nat) (request : Request)
    (instant : Nat) : Prop :=
  ∃ index, first ≤ index ∧ index < last ∧ instant = (index + 1) * interval ∧
    ∃ destination ∈ request.destinations,
      (state index).way? request.source destination ≠
        (state (index + 1)).way? request.source destination

theorem Regrouped.mono (first last : Nat) (instant : Nat)
    (regrouped : request.Regrouped interval state (first + 1) (first + 1 + last) instant) :
    request.Regrouped interval state first (first + (last + 1)) instant := by
  obtain ⟨index, after, before, same, differ⟩ := regrouped
  exact ⟨index, by omega, by omega, same, differ⟩

theorem boundaries_of_slices (sliced : request.Slices interval state remaining index parts) :
    ∀ part ∈ parts,
      (part.start = request.start ∨
        request.Regrouped interval state index (index + remaining) part.start) ∧
      (part.finish = request.finish ∨
        request.Regrouped interval state index (index + remaining) part.finish) := by
  induction sliced with
  | last index request parts split =>
    intro part member
    have whole := (partOf_of_split request _ parts split part member).2
    exact ⟨.inl whole.1, .inl whole.2⟩
  | waiting remaining index request parts early later ih =>
    intro part member
    exact (ih part member).imp (.imp_right (.mono _ _ _ _ _ _)) (.imp_right (.mono _ _ _ _ _ _))
  | closed remaining index request parts started ended split =>
    intro part member
    have whole := (partOf_of_split request _ parts split part member).2
    exact ⟨.inl whole.1, .inl whole.2⟩
  | kept remaining index request parts groups started runs found unchanged later ih =>
    intro part member
    exact (ih part member).imp (.imp_right (.mono _ _ _ _ _ _)) (.imp_right (.mono _ _ _ _ _ _))
  | cut remaining index request parts rest groups changed started runs found found' differ split
      later ih =>
    have here : request.Regrouped interval state index (index + (remaining + 1))
        ((index + 1) * interval) :=
      ⟨index, Nat.le_refl _, by omega, rfl, exists_way_ne request _ _ _ _ found found' differ⟩
    intro part member
    rcases List.mem_append.1 member with first | second
    · obtain ⟨_, start, finish⟩ := partOf_of_split _ _ parts split part first
      rw [request.finish_before _ started runs] at finish
      exact ⟨.inl start, .inr (finish ▸ here)⟩
    · obtain ⟨start, finish⟩ := ih part second
      rw [request.finish_since _ runs] at finish
      refine ⟨.inr ?_, finish.imp_right (.mono _ _ _ _ _ _)⟩
      rcases start with start | start
      · exact start ▸ here
      · exact .mono _ _ _ _ _ _ start

end Request
end Multicast
