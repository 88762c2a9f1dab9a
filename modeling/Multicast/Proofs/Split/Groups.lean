import Multicast.Split.AtSource
import Multicast.Proofs.Tree

/-!
Groups at the source. The groups of a request are the classes of its destinations by first hop, so
two snapshots give equal groups exactly if they agree on every first hop. Main statement: the parts
of a request have disjoint destinations, some in each part, and have all destinations between them.
-/

namespace Multicast
open Std

namespace Request

/-- Groups that hold the listed destinations, each under its first hop, and no empty group. -/
structure Grouped (snapshot : Snapshot) (source : NodeId) (listed : List NodeId)
    (groups : Groups) : Prop where
  mem_iff (way : NodeId × InterfaceId) (destination : NodeId) : destination ∈ groups[way]?.getD ∅ ↔
    destination ∈ listed ∧ snapshot.way? source destination = some way
  inhabited (way : NodeId × InterfaceId) (group : NodeSet) (found : groups[way]? = some group) :
    ∃ destination, destination ∈ group

theorem grouped_empty (snapshot : Snapshot) (source : NodeId) : Grouped snapshot source [] ∅ where
  mem_iff := by simp
  inhabited := by simp

theorem addToGroup_eq_ok (request : Request) (snapshot : Snapshot) (groups later : Groups)
    (destination : NodeId) :
    request.addToGroup snapshot groups destination = .ok later ↔
      destination ≠ request.source ∧
        ∃ way, snapshot.way? request.source destination = some way ∧
          later = groups.insert way ((groups[way]?.getD ∅).insert destination) := by
  unfold addToGroup Snapshot.way?
  by_cases self : destination = request.source
  · simp [self]
  · cases snapshot.nextHop request.source destination with
    | error error => simp [self]
    | ok hop => simp [self, eq_comm]

theorem grouped_addToGroup (request : Request) (snapshot : Snapshot) (groups later : Groups)
    (listed : List NodeId) (destination : NodeId)
    (grouped : Grouped snapshot request.source listed groups)
    (added : request.addToGroup snapshot groups destination = .ok later) :
    Grouped snapshot request.source (listed ++ [destination]) later := by
  obtain ⟨_, way, found, rfl⟩ := (addToGroup_eq_ok ..).1 added
  refine ⟨?_, ?_⟩
  · intro other node
    rw [ExtTreeMap.getElem?_insert]
    by_cases same : way = other
    · subst same
      simp only [compare_self, ↓reduceIte, Option.getD_some, ExtTreeSet.mem_insert,
        Std.compare_eq_iff_eq, grouped.mem_iff, List.mem_append, List.mem_singleton]
      constructor
      · rintro (rfl | ⟨old, way'⟩)
        · exact ⟨.inr rfl, found⟩
        · exact ⟨.inl old, way'⟩
      · rintro ⟨old | rfl, way'⟩
        · exact .inr ⟨old, way'⟩
        · exact .inl rfl
    · simp only [Std.compare_eq_iff_eq, same, ↓reduceIte, grouped.mem_iff, List.mem_append,
        List.mem_singleton]
      constructor
      · rintro ⟨old, way'⟩
        exact ⟨.inl old, way'⟩
      · rintro ⟨old | rfl, way'⟩
        · exact ⟨old, way'⟩
        · exact absurd (Option.some.inj (found.symm.trans way')) same
  · intro other group
    rw [ExtTreeMap.getElem?_insert]
    by_cases same : way = other
    · simp only [same, compare_self, ↓reduceIte, Option.some.injEq]
      rintro rfl
      exact ⟨destination, by simp⟩
    · simp only [Std.compare_eq_iff_eq, same, ↓reduceIte]
      exact grouped.inhabited other group

theorem grouped_foldlM (request : Request) (snapshot : Snapshot) (groups later : Groups)
    (listed further : List NodeId) (grouped : Grouped snapshot request.source listed groups)
    (folded : further.foldlM (request.addToGroup snapshot) groups = .ok later) :
    Grouped snapshot request.source (listed ++ further) later ∧
      ∀ destination ∈ further, destination ≠ request.source ∧
        ∃ way, snapshot.way? request.source destination = some way := by
  induction further generalizing groups listed with
  | nil =>
    cases folded
    exact ⟨by rwa [List.append_nil], by simp⟩
  | cons destination rest ih =>
    obtain ⟨next, added, folded⟩ := (Traversal.foldlM_cons_eq_ok ..).1 folded
    obtain ⟨away, way, found, _⟩ := (addToGroup_eq_ok ..).1 added
    obtain ⟨result, others⟩ :=
      ih next (listed ++ [destination]) (grouped_addToGroup _ _ _ _ _ _ grouped added) folded
    rw [List.append_assoc] at result
    exact ⟨result, List.forall_mem_cons.2 ⟨⟨away, way, found⟩, others⟩⟩

theorem grouped_sourceGroups (request : Request) (snapshot : Snapshot) (groups : Groups)
    (found : request.sourceGroups snapshot = .ok groups) :
    Grouped snapshot request.source request.destinations.toList groups :=
  (grouped_foldlM request snapshot _ _ [] _ (grouped_empty _ _) found).1

theorem way_of_sourceGroups (request : Request) (snapshot : Snapshot) (groups : Groups)
    (found : request.sourceGroups snapshot = .ok groups) (destination : NodeId)
    (member : destination ∈ request.destinations) :
    destination ≠ request.source ∧
      ∃ way, snapshot.way? request.source destination = some way :=
  (grouped_foldlM request snapshot _ _ [] _ (grouped_empty _ _) found).2 destination
    (ExtTreeSet.mem_toList.2 member)

theorem Grouped.eq_iff (snapshot current : Snapshot) (source : NodeId) (listed : List NodeId)
    (groups changed : Groups) (grouped : Grouped snapshot source listed groups)
    (regrouped : Grouped current source listed changed) :
    groups = changed ↔
      ∀ way, ∀ destination ∈ listed, snapshot.way? source destination = some way ↔
        current.way? source destination = some way := by
  constructor
  · rintro rfl way destination member
    have both := (grouped.mem_iff way destination).symm.trans (regrouped.mem_iff way destination)
    simpa only [member, true_and] using both
  · intro agree
    have members (way : NodeId × InterfaceId) (destination : NodeId) :
        destination ∈ groups[way]?.getD ∅ ↔ destination ∈ changed[way]?.getD ∅ := by
      rw [grouped.mem_iff, regrouped.mem_iff]
      exact and_congr_right fun member => agree way destination member
    apply ExtTreeMap.ext_getElem?
    intro way
    have members := members way
    cases old : groups[way]? with
    | none =>
      cases new : changed[way]? with
      | none => rfl
      | some group =>
        obtain ⟨destination, inside⟩ := regrouped.inhabited way group new
        exact absurd ((members destination).2 (by simpa [new] using inside)) (by simp [old])
    | some group =>
      cases new : changed[way]? with
      | none =>
        obtain ⟨destination, inside⟩ := grouped.inhabited way group old
        exact absurd ((members destination).1 (by simpa [old] using inside)) (by simp [new])
      | some group' =>
        simp only [old, new, Option.getD_some] at members
        rw [ExtTreeSet.ext_mem fun {destination} => members destination]

/-- Two snapshots group the destinations of a request alike exactly if they agree on the first hops. -/
theorem sourceGroups_eq_iff (request : Request) (snapshot current : Snapshot)
    (groups changed : Groups) (found : request.sourceGroups snapshot = .ok groups)
    (found' : request.sourceGroups current = .ok changed) :
    groups = changed ↔ ∀ way, ∀ destination ∈ request.destinations,
      snapshot.way? request.source destination = some way ↔
        current.way? request.source destination = some way := by
  have grouped := grouped_sourceGroups request snapshot groups found
  have regrouped := grouped_sourceGroups request current changed found'
  rw [Grouped.eq_iff _ _ _ _ _ _ grouped regrouped]
  simp only [ExtTreeSet.mem_toList]

theorem exists_way_ne (request : Request) (snapshot current : Snapshot) (groups changed : Groups)
    (found : request.sourceGroups snapshot = .ok groups)
    (found' : request.sourceGroups current = .ok changed) (differ : groups ≠ changed) :
    ∃ destination ∈ request.destinations,
      snapshot.way? request.source destination ≠ current.way? request.source destination := by
  by_contra agree
  push Not at agree
  have equal : groups = changed := by
    rw [sourceGroups_eq_iff request _ _ _ _ found found']
    intro way destination member
    rw [agree destination member]
  exact differ equal

theorem splitAtSource_eq_ok (request : Request) (snapshot : Snapshot) (parts : List Request) :
    request.splitAtSource snapshot = .ok parts ↔
      ∃ groups, request.sourceGroups snapshot = .ok groups ∧
        parts = groups.toList.map fun group => request.part group.2 := by
  unfold splitAtSource
  rw [Traversal.bind_eq_ok]
  simp only [pure, Except.pure, Except.ok.injEq, eq_comm]

theorem mem_splitAtSource (request : Request) (snapshot : Snapshot) (parts : List Request)
    (split : request.splitAtSource snapshot = .ok parts) (part : Request) (member : part ∈ parts) :
    ∃ destinations, part = request.part destinations ∧ request.source ∉ destinations ∧
      (∃ destination, destination ∈ destinations) ∧
      ∃ way, ∀ destination, destination ∈ destinations ↔
        destination ∈ request.destinations ∧ snapshot.way? request.source destination = some way := by
  obtain ⟨groups, found, rfl⟩ := (splitAtSource_eq_ok ..).1 split
  obtain ⟨⟨way, destinations⟩, listed, rfl⟩ := List.mem_map.1 member
  have entry := ExtTreeMap.mem_toList_iff_getElem?_eq_some.1 listed
  have grouped := grouped_sourceGroups request snapshot groups found
  have behind (destination : NodeId) : destination ∈ destinations ↔
      destination ∈ request.destinations ∧ snapshot.way? request.source destination = some way := by
    simpa only [entry, Option.getD_some, ExtTreeSet.mem_toList] using grouped.mem_iff way destination
  refine ⟨destinations, rfl, ?_, grouped.inhabited way destinations entry, way, behind⟩
  intro self
  have listed := ((behind request.source).1 self).1
  have away := (way_of_sourceGroups request snapshot groups found request.source listed).1
  exact away rfl

theorem exists_part (request : Request) (snapshot : Snapshot) (parts : List Request)
    (split : request.splitAtSource snapshot = .ok parts) (destination : NodeId)
    (member : destination ∈ request.destinations) :
    ∃ part ∈ parts, destination ∈ part.destinations := by
  obtain ⟨groups, found, rfl⟩ := (splitAtSource_eq_ok ..).1 split
  obtain ⟨_, way, behind⟩ := way_of_sourceGroups request snapshot groups found destination member
  have inside := ((grouped_sourceGroups request snapshot groups found).mem_iff way destination).2
    ⟨ExtTreeSet.mem_toList.2 member, behind⟩
  cases entry : groups[way]? with
  | none => simp [entry] at inside
  | some group =>
    rw [entry] at inside
    have listed : (way, group) ∈ groups.toList :=
      ExtTreeMap.mem_toList_iff_getElem?_eq_some.2 entry
    exact ⟨request.part group, List.mem_map.2 ⟨_, listed, rfl⟩, inside⟩

theorem disjoint_splitAtSource (request : Request) (snapshot : Snapshot) (parts : List Request)
    (split : request.splitAtSource snapshot = .ok parts) :
    parts.Pairwise fun one other =>
      ∀ destination ∈ one.destinations, destination ∉ other.destinations := by
  obtain ⟨groups, found, rfl⟩ := (splitAtSource_eq_ok ..).1 split
  have grouped := grouped_sourceGroups request snapshot groups found
  have distinct := groups.distinct_keys_toList
  rw [List.pairwise_map]
  apply distinct.imp_of_mem
  intro one other listed listed' apart destination inside inside'
  have entry := ExtTreeMap.mem_toList_iff_getElem?_eq_some.1 listed
  have entry' := ExtTreeMap.mem_toList_iff_getElem?_eq_some.1 listed'
  have way := ((grouped.mem_iff one.1 destination).1 (by rw [entry]; exact inside)).2
  have way' := ((grouped.mem_iff other.1 destination).1 (by rw [entry']; exact inside')).2
  rw [way] at way'
  exact apart (Std.compare_eq_iff_eq.2 (Option.some.inj way'))

end Request
end Multicast
