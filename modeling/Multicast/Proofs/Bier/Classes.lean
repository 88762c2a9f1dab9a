import Multicast.Proofs.Bier.Rounds
import Multicast.Proofs.Bier.Spread

/-!
Classes of positions. At a node the positions of other nodes fall into classes by the neighbour and the
interface that their next hops take. Main statement: the table of each node has exactly the entries of
these positions, each with its class as mask; so forwarding makes one copy for each class that a
bitstring has positions of, and only fails for want of an entry.
-/

namespace Multicast
open Std

def Replica.way (replica : Replica) : NodeId × InterfaceId := (replica.nextHop, replica.outInterface)

namespace BierTable

theorem node_foldl_install (entries : List BierEntry) (table : BierTable) :
    (entries.foldl install table).node = table.node := by
  induction entries generalizing table with
  | nil => rfl
  | cons entry rest ih => exact ih (table.install entry)

/-- A table of a node whose entries name their own positions and those of their next hops. -/
structure Labelled (positions : BitPositions) (node : NodeId) (table : BierTable) : Prop where
  here : table.node = node
  entry (position : Nat) (entry : BierEntry) (found : table.entries[position]? = some entry) :
    entry = entryOf positions (entry.nextHop, entry.outInterface) entry.mask position

theorem labelled_build (snapshot : Snapshot) (positions : BitPositions) (node : NodeId)
    (table : BierTable) (built : build snapshot positions node = .ok table) :
    Labelled positions node table := by
  refine Traversal.foldlM_keeps (Labelled positions node) (installGroup positions) ?_ _ _ table
    ⟨rfl, by simp [empty]⟩ built
  rintro table group later ⟨own, labelled⟩ installed
  obtain ⟨mask, _, rfl⟩ := (installGroup_eq_ok ..).1 installed
  refine ⟨(node_foldl_install ..).trans own, fun position entry found => ?_⟩
  rw [entries_foldl_install] at found
  split at found
  · cases found
    rfl
  · exact labelled position entry found

section
variable (snapshot : Snapshot) (positions : BitPositions) (node : NodeId)

/-- The table of a node as its next hops have it: an entry for each position of another node whose next
hop is resolved, and no more. -/
structure Sorts (table : BierTable) : Prop where
  here : table.node = node
  own : table.localPosition = positions.positionOf? node
  listed (position : Nat) : (∃ entry, table.entries[position]? = some entry) ↔
    ∃ destination next, positions.positionOf? destination = some position ∧ destination ≠ node ∧
      snapshot.nextHop node destination = .ok next
  entry (destination : NodeId) (position : Nat) (next : NextHop)
    (placed : positions.positionOf? destination = some position) (away : destination ≠ node)
    (found : snapshot.nextHop node destination = .ok next) :
    ∃ mask : Bitstring, table.entries[position]? =
        some ⟨position, mask, next.node, positions.positionOf? next.node, next.outInterface⟩ ∧
      ∀ other, mask.test other = true ↔
        Sends snapshot positions node (next.node, next.outInterface) other

/-- Forwarding by classes: it succeeds exactly if all positions have entries, and then makes one copy for
each class among them. -/
structure ForwardsClasses (table : BierTable) (bitstring : Bitstring) : Prop where
  consistent (here : NodeId) (position : Nat) :
    table.forward bitstring ≠ .error (.inconsistentMask here position)
  succeeds : (∃ replicas, table.forward bitstring = .ok replicas) ↔
    ∀ position, bitstring.test position = true → ∃ entry, table.entries[position]? = some entry
  once (replicas : List Replica) (sent : table.forward bitstring = .ok replicas) :
    (replicas.map Replica.way).Nodup
  ways (replicas : List Replica) (sent : table.forward bitstring = .ok replicas)
    (way : NodeId × InterfaceId) : way ∈ replicas.map Replica.way ↔
      ∃ position, bitstring.test position = true ∧ Sends snapshot positions node way position
  carried (replicas : List Replica) (sent : table.forward bitstring = .ok replicas)
    (replica : Replica) (member : replica ∈ replicas) (position : Nat) :
    replica.bitstring.test position = true ↔ bitstring.test position = true ∧
      Sends snapshot positions node replica.way position

theorem exists_sends_iff (position : Nat) :
    (∃ way, Sends snapshot positions node way position) ↔
      ∃ destination next, positions.positionOf? destination = some position ∧ destination ≠ node ∧
        snapshot.nextHop node destination = .ok next := by
  simp only [Sends, Snapshot.way?_eq_some]
  constructor
  · rintro ⟨way, destination, placed, away, next, found, rfl⟩
    exact ⟨destination, next, placed, away, found⟩
  · rintro ⟨destination, next, placed, away, found⟩
    exact ⟨_, destination, placed, away, next, found, rfl⟩

theorem Sends.unique (inverse : positions.Inverse) (one other : NodeId × InterfaceId)
    (position : Nat) (first : Sends snapshot positions node one position)
    (second : Sends snapshot positions node other position) : one = other := by
  obtain ⟨destination, placed, _, way⟩ := first
  obtain ⟨destination', placed', _, way'⟩ := second
  obtain rfl := inverse.injective positions _ _ position placed placed'
  exact Option.some.inj (way.symm.trans way')

section
variable (table : BierTable) (routes : Routes snapshot positions node table)
include routes

theorem exists_entry_iff (position : Nat) :
    (∃ entry, table.entries[position]? = some entry) ↔
      ∃ way, Sends snapshot positions node way position := by
  constructor
  · rintro ⟨entry, found⟩
    exact ⟨_, (routes.entry position entry found).1⟩
  · rintro ⟨way, sends⟩
    exact routes.complete way position sends

theorem ne_inconsistentMask_of_forward (bitstring : Bitstring) (here : NodeId) (position : Nat) :
    table.forward bitstring ≠ .error (.inconsistentMask here position) := by
  intro failed
  obtain ⟨_, _, lowest, _, _, blocks⟩ := (table.forward_eq_error_iff bitstring _).1 failed
  rcases blocks with ⟨absurd, _⟩ | ⟨_, entry, found, uncovered⟩
  · cases absurd
  · obtain ⟨own, masked⟩ := routes.entry lowest entry found
    rw [(masked lowest).2 own] at uncovered
    cases uncovered

variable (inverse : positions.Inverse)
include inverse

theorem sorts_of_routes (labelled : Labelled positions node table) :
    Sorts snapshot positions node table where
  here := labelled.here
  own := routes.own
  listed position := (exists_entry_iff snapshot positions node table routes position).trans
    (exists_sends_iff snapshot positions node position)
  entry destination position next placed away found := by
    have sends : Sends snapshot positions node (next.node, next.outInterface) position :=
      ⟨destination, placed, away, snapshot.way?_of_nextHop _ _ next found⟩
    obtain ⟨entry, known⟩ := routes.complete _ position sends
    obtain ⟨sends', masked⟩ := routes.entry position entry known
    have same := Sends.unique snapshot positions node inverse _ _ position sends' sends
    have label := labelled.entry position entry known
    rw [same] at label masked
    exact ⟨entry.mask, known.trans (congrArg some label), masked⟩

theorem classes_of_rounds (bitstring left : Bitstring) (replicas : List Replica)
    (rounds : table.Rounds bitstring replicas left) :
    (replicas.map Replica.way).Nodup ∧ ∀ replica ∈ replicas, ∀ position,
      replica.bitstring.test position = true ↔ bitstring.test position = true ∧
        Sends snapshot positions node replica.way position := by
  induction rounds with
  | done remaining => exact ⟨List.nodup_nil, by simp⟩
  | round remaining left position entry rest lowest found covered later ih =>
    obtain ⟨once, carried⟩ := ih
    obtain ⟨_, masked⟩ := routes.entry position entry found
    -- The class of the round is not among those of the later rounds.
    have apart : ∀ replica ∈ rest, replica.way ≠ (entry.nextHop, entry.outInterface) := by
      intro replica member same
      obtain ⟨place, _, start, _⟩ := table.entry_of_rounds _ _ _ later replica member
      have inside := ((Bitstring.lowest?_eq_some ..).1 start).1
      obtain ⟨held, sends⟩ := (carried replica member place).1 inside
      rw [same] at sends
      have unmasked := ((Bitstring.test_unmasked ..).1 held).2
      rw [(masked place).2 sends] at unmasked
      cases unmasked
    refine ⟨?_, List.forall_mem_cons.2 ⟨fun place => ?_, fun replica member place => ?_⟩⟩
    · refine List.nodup_cons.2 ⟨fun again => ?_, once⟩
      obtain ⟨replica, member, same⟩ := List.mem_map.1 again
      exact apart replica member same
    · rw [Bitstring.test_and, Bool.and_eq_true, masked]
      rfl
    · rw [carried replica member place, Bitstring.test_unmasked, and_assoc]
      refine and_congr_right fun _ => and_iff_right_of_imp fun sends => ?_
      rw [← Bool.not_eq_true, masked]
      intro sends'
      exact apart replica member
        (Sends.unique snapshot positions node inverse _ _ place sends sends')

theorem exists_replica_of_forward (bitstring : Bitstring) (replicas : List Replica)
    (sent : table.forward bitstring = .ok replicas) (position : Nat)
    (inside : bitstring.test position = true) :
    ∃ replica ∈ replicas, Sends snapshot positions node replica.way position := by
  obtain ⟨_, carried⟩ := classes_of_rounds snapshot positions node table routes inverse bitstring _
    replicas ((table.forward_eq_ok_iff ..).1 sent)
  obtain ⟨replica, member, held⟩ :=
    (table.partitions_of_forward bitstring replicas sent).covers position inside
  exact ⟨replica, member, ((carried replica member position).1 held).2⟩

theorem forwardsClasses (bitstring : Bitstring) :
    ForwardsClasses snapshot positions node table bitstring where
  consistent := ne_inconsistentMask_of_forward snapshot positions node table routes bitstring
  succeeds := by
    simp only [exists_entry_iff snapshot positions node table routes]
    constructor
    · rintro ⟨replicas, sent⟩ position inside
      obtain ⟨replica, _, sends⟩ := exists_replica_of_forward snapshot positions node table routes
        inverse bitstring replicas sent position inside
      exact ⟨_, sends⟩
    · intro known
      obtain ⟨replicas, sent, _⟩ :=
        exists_forward snapshot positions node table routes inverse bitstring known
      exact ⟨replicas, sent⟩
  once replicas sent := (classes_of_rounds snapshot positions node table routes inverse bitstring _
    replicas ((table.forward_eq_ok_iff ..).1 sent)).1
  ways replicas sent way := by
    have rounds := (table.forward_eq_ok_iff ..).1 sent
    obtain ⟨_, carried⟩ := classes_of_rounds snapshot positions node table routes inverse bitstring _
      replicas rounds
    constructor
    · intro listed
      obtain ⟨replica, member, rfl⟩ := List.mem_map.1 listed
      obtain ⟨position, _, start, _⟩ := table.entry_of_rounds _ _ _ rounds replica member
      exact ⟨position, (carried replica member position).1 ((Bitstring.lowest?_eq_some ..).1 start).1⟩
    · rintro ⟨position, inside, sends⟩
      obtain ⟨replica, member, sends'⟩ := exists_replica_of_forward snapshot positions node table
        routes inverse bitstring replicas sent position inside
      rw [Sends.unique snapshot positions node inverse _ _ position sends sends']
      exact List.mem_map_of_mem member
  carried replicas sent := (classes_of_rounds snapshot positions node table routes inverse bitstring _
    replicas ((table.forward_eq_ok_iff ..).1 sent)).2

end

theorem exists_build_sorts (inverse : positions.Inverse) :
    ∃ table, build snapshot positions node = .ok table ∧ Sorts snapshot positions node table ∧
      ∀ bitstring, ForwardsClasses snapshot positions node table bitstring := by
  obtain ⟨table, built, routes⟩ := exists_build snapshot positions inverse node
  have labelled := labelled_build snapshot positions node table built
  exact ⟨table, built, sorts_of_routes snapshot positions node table routes inverse labelled,
    forwardsClasses snapshot positions node table routes inverse⟩

end

/-- Where positions were given to nodes one at a time, the tables of a snapshot are built, one for each
node. A table has exactly the entries of the positions that its node can send, with their classes as
masks, and forwards any bitstring by classes. -/
theorem buildAll_sorts (snapshot : Snapshot) (positions : BitPositions)
    (made : positions.Assigned) :
    ∃ tables, buildAll snapshot positions = .ok tables ∧ tables.length = snapshot.nodeCount ∧
      ∀ node < snapshot.nodeCount, ∃ table, tables[node]? = some table ∧
        Sorts snapshot positions node table ∧
        ∀ bitstring, ForwardsClasses snapshot positions node table bitstring := by
  have inverse := positions.inverse_of_assigned made
  choose table built sorts using fun node => exists_build_sorts snapshot positions node inverse
  refine ⟨_, Traversal.mapM_of_forall _ table _ fun node _ => built node, ?_, fun node inside => ?_⟩
  · rw [List.length_map, List.length_range]
  · refine ⟨table node, ?_, sorts node⟩
    rw [List.getElem?_map, List.getElem?_range inside, Option.map_some]

def outlyingPositions : BitPositions := (BitPositions.sequential [1, 3, 9]).toOption.getD .empty

theorem buildAll_sorts_diamond : outlyingPositions.Assigned ∧
    ∃ tables table, buildAll (.diamond 0 1) outlyingPositions = .ok tables ∧
      tables[0]? = some table ∧ Sorts (.diamond 0 1) outlyingPositions 0 table ∧
      table.forward ⟨0b011⟩ = .ok [⟨1, 1, ⟨0b011⟩⟩] ∧
      table.forward ⟨0b111⟩ = .error (.unknownBitPosition 0 2) := by
  have made : outlyingPositions.Assigned :=
    BitPositions.assigned_sequential [1, 3, 9] outlyingPositions (by decide +kernel)
  obtain ⟨tables, built, _, each⟩ := buildAll_sorts (.diamond 0 1) outlyingPositions made
  obtain ⟨table, found, sorts, _⟩ := each 0 (by decide)
  have answers : (buildAll (.diamond 0 1) outlyingPositions).toOption.any (fun tables =>
      tables[0]?.any fun table => table.forward ⟨0b011⟩ = .ok [⟨1, 1, ⟨0b011⟩⟩] ∧
        table.forward ⟨0b111⟩ = .error (.unknownBitPosition 0 2)) = true := by
    decide +kernel
  simp only [built, Except.toOption, Option.any_some, found] at answers
  exact ⟨made, tables, table, built, found, sorts, of_decide_eq_true answers⟩

end BierTable
end Multicast
