import Multicast.Proofs.Split.Parts

/-!
First hops of parts. A request is kept whole over the start of an epoch only if its groups stay the
same. Main statement: in every epoch that a part runs in, all its destinations have one first hop.
-/

namespace Multicast
namespace Request

/-- All destinations of a request are behind one first hop. -/
def OneWay (request : Request) (snapshot : Snapshot) : Prop :=
  ∃ way, ∀ destination ∈ request.destinations,
    snapshot.way? request.source destination = some way

theorem oneWay_of_split (request : Request) (snapshot : Snapshot) (parts : List Request)
    (split : request.splitAtSource snapshot = .ok parts) (part : Request) (member : part ∈ parts) :
    part.OneWay snapshot := by
  obtain ⟨destinations, rfl, _, _, way, behind⟩ :=
    mem_splitAtSource request snapshot parts split part member
  exact ⟨way, fun destination inside => ((behind destination).1 inside).2⟩

theorem OneWay.of_unchanged (part request : Request) (snapshot current : Snapshot) (groups : Groups)
    (kept : part.PartOf request) (found : request.sourceGroups snapshot = .ok groups)
    (unchanged : request.sourceGroups current = .ok groups) (oneWay : part.OneWay current) :
    part.OneWay snapshot := by
  obtain ⟨way, behind⟩ := oneWay
  refine ⟨way, fun destination inside => ?_⟩
  have agree := (sourceGroups_eq_iff request snapshot current groups groups found unchanged).1 rfl
    way destination (kept.subset destination inside)
  rw [kept.source, agree, ← kept.source]
  exact behind destination inside

variable (interval : Nat) (state : Nat → Snapshot) (remaining index : Nat) (request : Request)
  (parts : List Request)

theorem start_of_slices (sliced : request.Slices interval state remaining index parts)
    (part : Request) (member : part ∈ parts) :
    part.start = request.start ∨ (index + 1) * interval ≤ part.start := by
  rcases (boundaries_of_slices _ _ _ _ _ _ sliced part member).1 with start | later
  · exact .inl start
  · obtain ⟨epoch, after, _, same, _⟩ := later
    rw [same]
    exact .inr (Nat.mul_le_mul_right interval (by omega))

theorem oneWay_at_start (sliced : request.Slices interval state remaining index parts)
    (begun : remaining ≠ 0 → request.start < (index + 1) * interval) :
    ∀ part ∈ parts, part.start = request.start → part.OneWay (state index) := by
  induction sliced with
  | last index request parts split =>
    exact fun part member _ => oneWay_of_split request _ parts split part member
  | waiting remaining index request parts early later ih =>
    exact absurd (begun (by simp)) (Nat.not_lt_of_le early)
  | closed remaining index request parts started ended split =>
    exact fun part member _ => oneWay_of_split request _ parts split part member
  | kept remaining index request parts groups started runs found unchanged later ih =>
    intro part member start
    have next : (index + 1) * interval ≤ (index + 1 + 1) * interval :=
      Nat.mul_le_mul_right interval (by omega)
    have kept := partOf_of_slices _ _ _ _ _ _ later part member
    exact .of_unchanged part request _ _ groups kept found unchanged
      (ih (fun _ => by omega) part member start)
  | cut remaining index request parts rest groups changed started runs found found' differ split
      later ih =>
    intro part member start
    rcases List.mem_append.1 member with first | second
    · exact oneWay_of_split (request.before _) _ parts split part first
    · have after : (index + 1) * interval ≤ part.start :=
        (partOf_of_slices _ _ _ _ _ _ later part second).start_le
      omega

/-- A part is behind one first hop in every epoch it runs in. What is left after the begin of the last
epoch runs in the last epoch. -/
theorem oneWay_of_slices (sliced : request.Slices interval state remaining index parts)
    (epoch : Nat) (after : index ≤ epoch) (before : epoch ≤ index + remaining) :
    ∀ part ∈ parts, (epoch ≠ index + remaining → part.start < (epoch + 1) * interval) →
      epoch * interval < part.finish → part.OneWay (state epoch) := by
  induction sliced with
  | last index request parts split =>
    intro part member _ _
    obtain rfl : epoch = index := by omega
    exact oneWay_of_split request _ parts split part member
  | waiting remaining index request parts early later ih =>
    intro part member started runs
    have start := (partOf_of_slices _ _ _ _ _ _ later part member).start_le
    have passed : epoch ≠ index := by
      rintro rfl
      have := started (by omega)
      omega
    exact ih (by omega) (by omega) part member (fun inner => started (by omega)) runs
  | closed remaining index request parts begun ended split =>
    intro part member _ runs
    obtain ⟨_, _, finish⟩ := partOf_of_split request _ parts split part member
    have inside : epoch * interval < (index + 1) * interval := by omega
    have current : epoch < index + 1 := Nat.lt_of_mul_lt_mul_right inside
    obtain rfl : epoch = index := by omega
    exact oneWay_of_split request _ parts split part member
  | kept remaining index request parts groups begun runs' found unchanged later ih =>
    intro part member started runs
    by_cases passed : epoch = index
    · subst passed
      have kept := Slices.kept _ _ _ _ _ begun runs' found unchanged later
      have start := (start_of_slices _ _ _ _ _ _ kept part member).resolve_right
        (Nat.not_le_of_lt (started (by omega)))
      exact oneWay_at_start _ _ _ _ _ _ kept (fun _ => begun) part member start
    · exact ih (by omega) (by omega) part member (fun inner => started (by omega)) runs
  | cut remaining index request parts rest groups changed begun runs' found found' differ split
      later ih =>
    intro part member started runs
    rcases List.mem_append.1 member with first | second
    · obtain ⟨_, _, finish⟩ := partOf_of_split _ _ parts split part first
      rw [request.finish_before _ begun runs'] at finish
      have inside : epoch * interval < (index + 1) * interval := by omega
      have current : epoch < index + 1 := Nat.lt_of_mul_lt_mul_right inside
      obtain rfl : epoch = index := by omega
      exact oneWay_of_split (request.before _) _ parts split part first
    · have start : (index + 1) * interval ≤ part.start :=
        (partOf_of_slices _ _ _ _ _ _ later part second).start_le
      have passed : epoch ≠ index := by
        rintro rfl
        have := started (by omega)
        omega
      exact ih (by omega) (by omega) part second (fun inner => started (by omega)) runs

end Request
end Multicast
