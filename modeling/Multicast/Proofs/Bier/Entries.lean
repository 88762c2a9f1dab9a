import Multicast.Proofs.Bier.Positions
import Multicast.Proofs.Unicast.Path
import Mathlib.Tactic.Choose

/-!
Entries of tables. Main statements: the tables of a snapshot are always built, and the table of a node
sends a position where the first hop to the destination of the position goes, under a mask of all
positions that go there.
-/

namespace Multicast
open Std

namespace BierTable

/-- Whether a position is that of another node whose first hop from here goes the given way. -/
def Sends (snapshot : Snapshot) (positions : BitPositions) (node : NodeId)
    (way : NodeId × InterfaceId) (position : Nat) : Prop :=
  ∃ destination, positions.positionOf? destination = some position ∧ destination ≠ node ∧
    snapshot.way? node destination = some way

theorem mem_group (snapshot : Snapshot) (node : NodeId) (groups : Groups)
    (assigned : NodeId × Nat) (way : NodeId × InterfaceId) (position : Nat) :
    position ∈ (group snapshot node groups assigned)[way]?.getD [] ↔
      position ∈ groups[way]?.getD [] ∨ (assigned.2 = position ∧ assigned.1 ≠ node ∧
        snapshot.way? node assigned.1 = some way) := by
  unfold group Snapshot.way?
  by_cases here : assigned.1 = node
  · simp [here]
  · rw [if_neg here]
    cases snapshot.nextHop node assigned.1 with
    | error error => simp
    | ok hop =>
      simp only [ExtTreeMap.getElem?_insert, Std.compare_eq_iff_eq, Option.some.injEq]
      by_cases same : (hop.node, hop.outInterface) = way
      · simp [same, here, eq_comm]
      · simp [same]

theorem mem_foldl_group (snapshot : Snapshot) (node : NodeId) (listed : List (NodeId × Nat))
    (groups : Groups) (way : NodeId × InterfaceId) (position : Nat) :
    position ∈ (listed.foldl (group snapshot node) groups)[way]?.getD [] ↔
      position ∈ groups[way]?.getD [] ∨ ∃ assigned ∈ listed, assigned.2 = position ∧
        assigned.1 ≠ node ∧ snapshot.way? node assigned.1 = some way := by
  induction listed generalizing groups with
  | nil => simp
  | cons assigned rest ih =>
    rw [List.foldl_cons, ih, mem_group]
    simp only [List.mem_cons, exists_eq_or_imp, or_assoc]

theorem mem_groupsAt (snapshot : Snapshot) (positions : BitPositions) (node : NodeId)
    (way : NodeId × InterfaceId) (position : Nat) :
    position ∈ (groupsAt snapshot positions node)[way]?.getD [] ↔
      Sends snapshot positions node way position := by
  unfold groupsAt Sends
  rw [mem_foldl_group]
  simp only [ExtTreeMap.getElem?_empty, Option.getD_none, List.not_mem_nil, false_or, Prod.exists,
    BitPositions.mem_toList]
  constructor
  · rintro ⟨destination, _, held, rfl, away, found⟩
    exact ⟨destination, held, away, found⟩
  · rintro ⟨destination, held, away, found⟩
    exact ⟨destination, position, held, rfl, away, found⟩

theorem mem_of_mem_groupsAt (snapshot : Snapshot) (positions : BitPositions) (node : NodeId)
    (way : NodeId × InterfaceId) (members : List Nat)
    (listed : (way, members) ∈ (groupsAt snapshot positions node).toList) (position : Nat) :
    position ∈ members ↔ Sends snapshot positions node way position := by
  rw [← mem_groupsAt, ExtTreeMap.mem_toList_iff_getElem?_eq_some.1 listed, Option.getD_some]

def entryOf (positions : BitPositions) (way : NodeId × InterfaceId) (mask : Bitstring)
    (position : Nat) : BierEntry :=
  ⟨position, mask, way.1, positions.positionOf? way.1, way.2⟩

theorem entries_foldl_install (positions : BitPositions) (way : NodeId × InterfaceId)
    (mask : Bitstring) (members : List Nat) (table : BierTable) (position : Nat) :
    ((members.map (entryOf positions way mask)).foldl install table).entries[position]? =
      if position ∈ members then some (entryOf positions way mask position)
      else table.entries[position]? := by
  induction members generalizing table with
  | nil => simp
  | cons member rest ih =>
    rw [List.map_cons, List.foldl_cons, ih]
    by_cases later : position ∈ rest
    · simp [later]
    · by_cases same : member = position
      · subst same
        simp [later, install, entryOf]
      · have different : ¬position = member := fun equal => same equal.symm
        simp [later, different, same, install, entryOf, ExtTreeMap.getElem?_insert]

theorem installGroup_eq_ok (positions : BitPositions) (table later : BierTable)
    (group : (NodeId × InterfaceId) × List Nat) :
    installGroup positions table group = .ok later ↔
      ∃ mask, Bitstring.ofPositions group.2 = .ok mask ∧
        later = (group.2.map (entryOf positions group.1 mask)).foldl install table := by
  unfold installGroup
  rw [Traversal.bind_eq_ok]
  simp only [pure, Except.pure, Except.ok.injEq, List.foldl_map, entryOf, eq_comm]

/-- The table of a node: every entry goes the way of its position and masks what goes there, and every
position that goes somewhere has an entry. -/
structure Routes (snapshot : Snapshot) (positions : BitPositions) (node : NodeId)
    (table : BierTable) : Prop where
  own : table.localPosition = positions.positionOf? node
  entry (position : Nat) (entry : BierEntry) (found : table.entries[position]? = some entry) :
    Sends snapshot positions node (entry.nextHop, entry.outInterface) position ∧
      ∀ other, entry.mask.test other = true ↔
        Sends snapshot positions node (entry.nextHop, entry.outInterface) other
  complete (way : NodeId × InterfaceId) (position : Nat)
    (sends : Sends snapshot positions node way position) :
    ∃ entry, table.entries[position]? = some entry

theorem exists_installGroups (positions : BitPositions)
    (groups : List ((NodeId × InterfaceId) × List Nat)) (first : BierTable)
    (bounded : ∀ group ∈ groups, ∀ position ∈ group.2, position < bitCount) :
    ∃ last, groups.foldlM (installGroup positions) first = .ok last ∧
      (∀ position entry, last.entries[position]? = some entry →
        first.entries[position]? = some entry ∨
          ∃ group ∈ groups, position ∈ group.2 ∧ group.1 = (entry.nextHop, entry.outInterface) ∧
            ∀ other, entry.mask.test other = true ↔ other ∈ group.2) ∧
      ∀ position, (∃ entry, first.entries[position]? = some entry) ∨
        (∃ group ∈ groups, position ∈ group.2) → ∃ entry, last.entries[position]? = some entry := by
  induction groups generalizing first with
  | nil => exact ⟨first, rfl, fun _ _ found => .inl found, by simp⟩
  | cons group rest ih =>
    obtain ⟨fits, bounded⟩ := List.forall_mem_cons.1 bounded
    obtain ⟨mask, masked, test⟩ := Bitstring.exists_ofPositions group.2 fits
    obtain ⟨last, folded, origin, kept⟩ :=
      ih ((group.2.map (entryOf positions group.1 mask)).foldl install first) bounded
    have installed := (installGroup_eq_ok positions first _ group).2 ⟨mask, masked, rfl⟩
    refine ⟨last, (Traversal.foldlM_cons_eq_ok ..).2 ⟨_, installed, folded⟩,
      fun position entry found => ?_, fun position some => ?_⟩
    · rcases origin position entry found with before | ⟨other, listed, found⟩
      · rw [entries_foldl_install] at before
        by_cases member : position ∈ group.2
        · rw [if_pos member] at before
          cases before
          exact .inr ⟨group, List.mem_cons_self, member, rfl, test⟩
        · rw [if_neg member] at before
          exact .inl before
      · exact .inr ⟨other, List.mem_cons_of_mem _ listed, found⟩
    · apply kept position
      rw [entries_foldl_install]
      by_cases member : position ∈ group.2
      · exact .inl ⟨_, if_pos member⟩
      · rw [if_neg member]
        refine some.imp_right ?_
        rintro ⟨other, listed, inside⟩
        rcases List.mem_cons.1 listed with rfl | later
        · exact absurd inside member
        · exact ⟨other, later, inside⟩

theorem exists_build (snapshot : Snapshot) (positions : BitPositions) (inverse : positions.Inverse)
    (node : NodeId) :
    ∃ table, build snapshot positions node = .ok table ∧ Routes snapshot positions node table := by
  have members := mem_of_mem_groupsAt snapshot positions node
  have bounded : ∀ group ∈ (groupsAt snapshot positions node).toList, ∀ position ∈ group.2,
      position < bitCount := by
    rintro ⟨way, group⟩ listed position inside
    obtain ⟨destination, held, _⟩ := (members way group listed position).1 inside
    exact inverse.bounded destination position held
  obtain ⟨table, built, origin, kept⟩ := exists_installGroups positions _
    (empty node (positions.positionOf? node)) bounded
  refine ⟨table, built, localPosition_build snapshot positions node table built, ?_, ?_⟩
  · intro position entry found
    rcases origin position entry found with absent | ⟨⟨_, group⟩, listed, inside, rfl, masked⟩
    · simp [empty] at absent
    · have sends := members _ group listed
      exact ⟨(sends position).1 inside, fun other => (masked other).trans (sends other)⟩
  · intro way position sends
    rw [← mem_groupsAt] at sends
    apply kept position
    cases found : (groupsAt snapshot positions node)[way]? with
    | none =>
      rw [found, Option.getD_none] at sends
      cases sends
    | some group =>
      rw [found, Option.getD_some] at sends
      exact .inr ⟨(way, group), ExtTreeMap.mem_toList_iff_getElem?_eq_some.2 found, sends⟩

theorem exists_buildAll (snapshot : Snapshot) (positions : BitPositions)
    (inverse : positions.Inverse) :
    ∃ tables, buildAll snapshot positions = .ok tables ∧
      ∀ node < snapshot.nodeCount, ∃ table, tables[node]? = some table ∧
        Routes snapshot positions node table := by
  choose table built routes using exists_build snapshot positions inverse
  refine ⟨_, Traversal.mapM_of_forall _ table _ fun node _ => built node, fun node inside => ?_⟩
  refine ⟨table node, ?_, routes node⟩
  rw [List.getElem?_map, List.getElem?_range inside, Option.map_some]

end BierTable
end Multicast
