import Multicast.Request
import Multicast.Schedule.Valid
import Multicast.Proofs.Sorting
import Mathlib.Data.List.Pairwise

/-!
Endpoints and numbering of requests. Numbering keeps everything about the requests but their order and
their numbers, and puts them in the order of their starts.
-/

namespace Multicast
open Std

theorem NodeSet.isEmpty_eq_false_iff (nodes : NodeSet) :
    nodes.isEmpty = false ↔ ∃ node, node ∈ nodes := by
  rw [ExtTreeSet.isEmpty_eq_false_iff, ExtTreeSet.eq_empty_iff_forall_not_mem]
  simp only [Classical.not_forall, Classical.not_not]

theorem Request.hasValidEndpoints_iff (request : Request) (roles : NodeRoles) :
    request.HasValidEndpoints roles ↔ (∃ node, node ∈ request.destinations) ∧
      request.source ∉ request.destinations ∧ roles.isGroundStation request.source = true ∧
      ∀ node ∈ request.destinations, roles.isGroundStation node = true := by
  unfold HasValidEndpoints
  rw [NodeSet.isEmpty_eq_false_iff, ← Bool.not_eq_true, ← ExtTreeSet.mem_iff_contains,
    List.forall_mem_cons]
  simp only [ExtTreeSet.mem_toList]

theorem renumber_eq (requests : List Request) :
    ∃ sorted : List Request, sorted.Perm requests ∧
      sorted.Pairwise (fun one other => one.start ≤ other.start) ∧
      renumber requests = sorted.zipIdx.map fun entry => { entry.1 with id := entry.2 } :=
  ⟨sortedBy Request.start requests, sortedBy_perm _ _, ascends_sortedBy _ _, rfl⟩

theorem renumber_congr (one other : List Request)
    (same : sortedBy Request.start one = sortedBy Request.start other) :
    renumber one = renumber other := by
  change (sortedBy Request.start one).zipIdx.map _ = (sortedBy Request.start other).zipIdx.map _
  rw [same]

def Request.unnumbered (request : Request) : Request := { request with id := 0 }

theorem map_unnumbered_renumber (requests : List Request) :
    (renumber requests).map Request.unnumbered =
      (sortedBy Request.start requests).map Request.unnumbered := by
  change ((sortedBy Request.start requests).zipIdx.map _).map _ = _
  rw [List.map_map, ← List.zipIdx_map_fst 0 (sortedBy Request.start requests), List.map_map,
    List.zipIdx_map_fst]
  rfl

theorem map_start_renumber (requests : List Request) :
    (renumber requests).map Request.start = (sortedBy Request.start requests).map Request.start := by
  have starts := congrArg (List.map Request.start) (map_unnumbered_renumber requests)
  rw [List.map_map, List.map_map] at starts
  exact starts

theorem length_renumber (requests : List Request) : (renumber requests).length = requests.length := by
  obtain ⟨sorted, perm, _, numbered⟩ := renumber_eq requests
  rw [numbered, List.length_map, List.length_zipIdx, perm.length_eq]

theorem map_id_renumber (requests : List Request) :
    (renumber requests).map Request.id = List.range requests.length := by
  obtain ⟨sorted, perm, _, numbered⟩ := renumber_eq requests
  rw [numbered, List.map_map]
  change sorted.zipIdx.map Prod.snd = _
  rw [List.zipIdx_map_snd, perm.length_eq, List.range_eq_range']

theorem mem_renumber (requests : List Request) (part : Request) (member : part ∈ renumber requests) :
    ∃ request ∈ requests, ∃ id, part = { request with id } := by
  obtain ⟨sorted, perm, _, numbered⟩ := renumber_eq requests
  rw [numbered] at member
  obtain ⟨⟨request, id⟩, listed, rfl⟩ := List.mem_map.1 member
  exact ⟨request, perm.mem_iff.1 (List.fst_mem_of_mem_zipIdx listed), id, rfl⟩

theorem exists_mem_renumber (requests : List Request) (request : Request)
    (member : request ∈ requests) : ∃ id, { request with id } ∈ renumber requests := by
  obtain ⟨sorted, perm, _, numbered⟩ := renumber_eq requests
  have listed : request ∈ sorted.zipIdx.map Prod.fst := by
    rw [List.zipIdx_map_fst]
    exact perm.mem_iff.2 member
  obtain ⟨⟨request, id⟩, entry, rfl⟩ := List.mem_map.1 listed
  rw [numbered]
  exact ⟨id, List.mem_map.2 ⟨_, entry, rfl⟩⟩

/-- What is said of any two requests in either order, and not of their numbers, is said of any two
after numbering. -/
theorem pairwise_renumber (requests : List Request) (related : Request → Request → Prop)
    (symmetric : ∀ one other, related one other → related other one)
    (unnumbered : ∀ one other id id', related one other →
      related { one with id } { other with id := id' })
    (holds : requests.Pairwise related) : (renumber requests).Pairwise related := by
  obtain ⟨sorted, perm, _, numbered⟩ := renumber_eq requests
  have entries : (sorted.zipIdx.map Prod.fst).Pairwise related := by
    rw [List.zipIdx_map_fst]
    exact perm.symm.pairwise holds fun apart => symmetric _ _ apart
  rw [numbered, List.pairwise_map]
  exact (List.pairwise_map.1 entries).imp fun {one other} holds => unnumbered _ _ _ _ holds

theorem sorted_renumber (requests : List Request) :
    (renumber requests).Pairwise fun one other => one.start ≤ other.start := by
  obtain ⟨sorted, _, ordered, numbered⟩ := renumber_eq requests
  rw [numbered, List.pairwise_map]
  rw [← List.zipIdx_map_fst 0 sorted, List.pairwise_map] at ordered
  exact ordered.imp fun before => before

theorem numberedFromZero_renumber (requests : List Request) :
    Schedule.NumberedFromZero (renumber requests) := by
  unfold Schedule.NumberedFromZero
  rw [map_id_renumber, length_renumber]

theorem startsAscend_renumber (requests : List Request) :
    Schedule.StartsAscend (renumber requests) :=
  List.pairwise_map.2 (sorted_renumber requests)

theorem Request.eq_of_id (requests : List Request)
    (distinct : requests.Pairwise fun one other => one.id ≠ other.id) (one other : Request)
    (member : one ∈ requests) (member' : other ∈ requests) (same : one.id = other.id) :
    one = other := by
  have : Std.Symm fun one other : Request => one.id ≠ other.id := ⟨fun _ _ => Ne.symm⟩
  by_contra different
  exact distinct.forall member member' different same

def diamondSchedule : List Request :=
  [⟨4, 0, (∅ : NodeSet).insertMany [1, 3], 1.0, 5, 20, "", "kind=video"⟩,
    ⟨9, 0, (∅ : NodeSet).insertMany [1, 3], 1.0, 12, 0, "", ""⟩]

end Multicast
