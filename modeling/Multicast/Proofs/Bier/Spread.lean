import Multicast.Proofs.Bier.Entries
import Multicast.Proofs.Request
import Multicast.Proofs.Tree
import Multicast.Proofs.Unicast.Sequence
import Mathlib.Data.List.Nodup

/-!
Spreads. A bitstring is processed at a node and each copy at its next hop, again and again, until no
copy is left. Main statement: in the tables of a snapshot this ends without an error, each node whose
position is in the bitstring takes the packet once and no other node does, and the links that copies
cross are those of the request's tree.
-/

namespace Multicast
open Std

/-- What becomes of a packet with a bitstring: the nodes that take it, each as often as it does, and
the links that its copies cross. -/
structure Spread where
  takers : List NodeId
  links : List Hop
deriving DecidableEq, Inhabited

inductive SpreadError where
  | bier (error : BierError)
  | missingTable (node : NodeId)
  | notNeighbor (node neighbor : NodeId)
  /-- Copies are left after as many hops as were allowed. -/
  | unfinished
deriving DecidableEq

namespace Spread

/-- A copy goes from a node to its next hop, and `rest` tells what becomes of it there. -/
def branch (snapshot : Snapshot) (node : NodeId)
    (rest : NodeId → Bitstring → Except SpreadError Spread) (replica : Replica) :
    Except SpreadError Spread :=
  match snapshot.interfaces.interfaceTo? replica.nextHop node with
  | none => .error (.notNeighbor replica.nextHop node)
  | some inInterface =>
    match rest replica.nextHop replica.bitstring with
    | .error error => .error error
    | .ok spread => .ok { spread with
        links := ⟨node, replica.outInterface, replica.nextHop, inInterface⟩ :: spread.links }

def gather (node : NodeId) (taken : Bool) (branches : List Spread) : Spread where
  takers := (if taken then [node] else []) ++ branches.flatMap takers
  links := branches.flatMap links

/-- What becomes of a bitstring that is processed at a node, if every copy is done before it has
crossed as many links as the allowance. -/
def ofBitstring (snapshot : Snapshot) (tables : List BierTable) :
    (allowance : Nat) → NodeId → Bitstring → Except SpreadError Spread
  | 0, _, _ => .error .unfinished
  | allowance + 1, node, bitstring =>
    match tables[node]? with
    | none => .error (.missingTable node)
    | some table =>
      match table.process bitstring with
      | .error error => .error (.bier error)
      | .ok decision =>
        match decision.replicas.mapM
            (branch snapshot node (ofBitstring snapshot tables allowance)) with
        | .error error => .error error
        | .ok branches => .ok (gather node decision.deliverLocally branches)

end Spread

theorem Bitstring.exists_test (bitstring : Bitstring) (inhabited : bitstring.isZero = false) :
    ∃ position, bitstring.test position = true := by
  by_contra! none
  have zero : bitstring.bits = 0 := BitVec.eq_of_getLsbD_eq fun position _ => by
    simpa [test] using none position
  simp [isZero, zero] at inhabited

namespace BierTable

section
variable (snapshot : Snapshot) (positions : BitPositions) (node : NodeId) (table : BierTable)
  (routes : Routes snapshot positions node table)
include routes

theorem exists_replicate (listed : List Nat) (remaining : Bitstring)
    (inside : ∀ position, remaining.test position = true → position ∈ listed)
    (known : ∀ position, remaining.test position = true →
      ∃ way, Sends snapshot positions node way position) :
    ∃ replicas, table.replicate listed remaining = .ok replicas ∧
      (∀ replica ∈ replicas, ∀ position, replica.bitstring.test position = true →
        Sends snapshot positions node (replica.nextHop, replica.outInterface) position) ∧
      ∀ position, remaining.test position = true →
        ∃ replica ∈ replicas, replica.bitstring.test position = true := by
  induction listed generalizing remaining with
  | nil =>
    refine ⟨[], rfl, by simp, fun position member => ?_⟩
    cases inside position member
  | cons first later ih =>
    unfold replicate
    cases member : remaining.test first with
    | false =>
      simp only [Bool.false_eq_true, if_false]
      refine ih remaining (fun position held => ?_) known
      refine (List.mem_cons.1 (inside position held)).resolve_left ?_
      rintro rfl
      rw [member] at held
      cases held
    | true =>
      obtain ⟨way, sends⟩ := known first member
      obtain ⟨entry, found⟩ := routes.complete way first sends
      obtain ⟨own, masked⟩ := routes.entry first entry found
      have covered : (remaining &&& entry.mask).test first = true := by
        rw [Bitstring.test_and, member, (masked first).2 own, Bool.and_self]
      have left (position : Nat) : (remaining ^^^ (remaining &&& entry.mask)).test position = true ↔
          remaining.test position = true ∧ entry.mask.test position = false := by
        rw [Bitstring.test_xor, Bitstring.test_and]
        cases remaining.test position <;> simp
      obtain ⟨replicas, sent, goes, covers⟩ :=
        ih (remaining ^^^ (remaining &&& entry.mask))
          (fun position held => by
            obtain ⟨before, unmasked⟩ := (left position).1 held
            refine (List.mem_cons.1 (inside position before)).resolve_left ?_
            rintro rfl
            rw [(masked position).2 own] at unmasked
            cases unmasked)
          fun position held => known position ((left position).1 held).1
      simp only [if_true, lookup, found, covered, sent]
      refine ⟨_, rfl, List.forall_mem_cons.2 ⟨fun position held => ?_, goes⟩,
        fun position held => ?_⟩
      · rw [Bitstring.test_and, Bool.and_eq_true] at held
        exact (masked position).1 held.2
      · cases mask : entry.mask.test position with
        | true =>
          refine ⟨_, List.mem_cons_self, ?_⟩
          rw [Bitstring.test_and, held, mask, Bool.and_self]
        | false =>
          obtain ⟨replica, listed, test⟩ := covers position ((left position).2 ⟨held, mask⟩)
          exact ⟨replica, List.mem_cons_of_mem _ listed, test⟩

variable (inverse : positions.Inverse)
include inverse

theorem exists_forward (bitstring : Bitstring)
    (known : ∀ position, bitstring.test position = true →
      ∃ way, Sends snapshot positions node way position) :
    ∃ replicas, table.forward bitstring = .ok replicas ∧
      (∀ replica ∈ replicas, ∀ position, replica.bitstring.test position = true →
        Sends snapshot positions node (replica.nextHop, replica.outInterface) position) ∧
      ∀ position, bitstring.test position = true →
        ∃ replica ∈ replicas, replica.bitstring.test position = true := by
  refine exists_replicate snapshot positions node table routes _ bitstring
    (fun position held => ?_) known
  obtain ⟨_, destination, own, _⟩ := known position held
  exact List.mem_range.2 (inverse.bounded destination position own)

theorem exists_process (bitstring : Bitstring)
    (known : ∀ position, bitstring.test position = true →
      positions.positionOf? node = some position ∨
        ∃ way, Sends snapshot positions node way position) :
    ∃ decision, table.process bitstring = .ok decision ∧
      (decision.deliverLocally = true ↔
        ∃ position, positions.positionOf? node = some position ∧
          bitstring.test position = true) ∧
      (∀ replica ∈ decision.replicas, ∀ position, replica.bitstring.test position = true →
        Sends snapshot positions node (replica.nextHop, replica.outInterface) position) ∧
      ∀ position, bitstring.test position = true →
        positions.positionOf? node = some position ∨
          ∃ replica ∈ decision.replicas, replica.bitstring.test position = true := by
  have forward := exists_forward snapshot positions node table routes inverse
  unfold process
  rw [routes.own]
  cases own : positions.positionOf? node with
  | none =>
    obtain ⟨replicas, sent, goes, covers⟩ := forward bitstring fun position held =>
      (known position held).resolve_left (by simp [own])
    refine ⟨⟨false, replicas⟩, (Traversal.bind_eq_ok ..).2 ⟨_, sent, rfl⟩, by simp, goes, ?_⟩
    exact fun position held => .inr (covers position held)
  | some place =>
    dsimp only
    by_cases inside : bitstring.test place = true
    · rw [if_pos inside]
      have cleared : bitstring.clear place = .ok (bitstring.without (.single place)) :=
        if_pos (inverse.bounded node place own)
      have rest := bitstring.test_of_clear _ place cleared
      obtain ⟨replicas, sent, goes, covers⟩ := forward _ fun position held =>
        (known position ((rest position).1 held).1).resolve_left fun same =>
          ((rest position).1 held).2 (Option.some.inj (same.symm.trans own))
      refine ⟨⟨true, replicas⟩, ?_, by simp [inside], goes, fun position held => ?_⟩
      · exact (Traversal.bind_eq_ok ..).2 ⟨_, cleared, (Traversal.bind_eq_ok ..).2 ⟨_, sent, rfl⟩⟩
      · by_cases same : place = position
        · exact .inl (congrArg some same)
        · exact .inr (covers position ((rest position).2 ⟨held, Ne.symm same⟩))
    · rw [if_neg inside]
      obtain ⟨replicas, sent, goes, covers⟩ := forward bitstring fun position held =>
        (known position held).resolve_left fun same => by
          obtain rfl := Option.some.inj (own.symm.trans same)
          exact inside held
      refine ⟨⟨false, replicas⟩, (Traversal.bind_eq_ok ..).2 ⟨_, sent, rfl⟩, by simp [inside],
        goes, fun position held => .inr (covers position held)⟩

end

end BierTable

namespace Spread

/-- A spread of a bitstring from a node that keeps to the paths: the nodes of its positions take the
packet once, and copies cross the links on the way to them. -/
structure Follows (snapshot : Snapshot) (positions : BitPositions) (node : NodeId)
    (bitstring : Bitstring) (spread : Spread) : Prop where
  once : spread.takers.Nodup
  takers (taker : NodeId) : taker ∈ spread.takers ↔
    ∃ position, positions.positionOf? taker = some position ∧ bitstring.test position = true
  links (hop : Hop) : hop ∈ spread.links ↔
    ∃ destination position hops, positions.positionOf? destination = some position ∧
      bitstring.test position = true ∧ snapshot.Leads node destination hops ∧ hop ∈ hops

section
variable (snapshot : Snapshot) (positions : BitPositions) (node : NodeId) (bitstring : Bitstring)
  (decision : BierDecision) (rest : Replica → Spread) (next : Replica → NextHop)

def branches : List Spread :=
  decision.replicas.map fun replica =>
    { rest replica with links := Snapshot.hopFrom node (next replica) :: (rest replica).links }

theorem mem_takers_gather (taken : Bool) (taker : NodeId) :
    taker ∈ (gather node taken (branches node decision rest next)).takers ↔
      (taken = true ∧ taker = node) ∨ ∃ replica ∈ decision.replicas, taker ∈ (rest replica).takers := by
  cases taken <;> simp [gather, branches]

theorem mem_links_gather (taken : Bool) (hop : Hop) :
    hop ∈ (gather node taken (branches node decision rest next)).links ↔
      ∃ replica ∈ decision.replicas, hop = Snapshot.hopFrom node (next replica) ∨
        hop ∈ (rest replica).links := by
  simp [gather, branches]

variable (inverse : positions.Inverse)
  (shared : Replica.Share decision.replicas bitstring)
  (delivers : decision.deliverLocally = true ↔
    ∃ position, positions.positionOf? node = some position ∧ bitstring.test position = true)
  (others : ∀ position, positions.positionOf? node = some position →
    ∀ replica ∈ decision.replicas, replica.bitstring.test position = false)
  (covers : ∀ position, bitstring.test position = true →
    positions.positionOf? node = some position ∨
      ∃ replica ∈ decision.replicas, replica.bitstring.test position = true)
  (follows : ∀ replica ∈ decision.replicas,
    Follows snapshot positions (next replica).node replica.bitstring (rest replica))
include shared others follows

theorem nodup_takers_gather (taken : Bool) :
    (gather node taken (branches node decision rest next)).takers.Nodup := by
  have apart : (decision.replicas.flatMap fun replica => (rest replica).takers).Nodup := by
    refine List.nodup_flatMap.2 ⟨fun replica listed => (follows replica listed).once, ?_⟩
    refine shared.disjoint.imp_of_mem fun {one other} first second disjoint taker here there => ?_
    obtain ⟨position, own, inside⟩ := ((follows one first).takers taker).1 here
    obtain ⟨position', own', inside'⟩ := ((follows other second).takers taker).1 there
    obtain rfl := Option.some.inj (own.symm.trans own')
    exact Bool.false_ne_true ((disjoint position inside).symm.trans inside')
  have elsewhere : node ∉ decision.replicas.flatMap fun replica => (rest replica).takers := by
    intro again
    obtain ⟨replica, listed, takes⟩ := List.mem_flatMap.1 again
    obtain ⟨position, own, inside⟩ := ((follows replica listed).takers node).1 takes
    exact Bool.false_ne_true ((others position own replica listed).symm.trans inside)
  have joined : (gather node taken (branches node decision rest next)).takers =
      (if taken then [node] else []) ++
        decision.replicas.flatMap fun replica => (rest replica).takers := by
    simp [gather, branches, List.flatMap_map]
  rw [joined]
  cases taken with
  | false => exact apart
  | true => exact List.nodup_cons.2 ⟨elsewhere, apart⟩

include inverse delivers covers

/-- The spreads of the copies of a node make up the spread of the node, if every position goes with
the copy that takes its next hop. -/
theorem follows_gather
    (goes : ∀ replica ∈ decision.replicas, ∀ destination position,
      positions.positionOf? destination = some position → replica.bitstring.test position = true →
        destination ≠ node ∧ snapshot.nextHop node destination = .ok (next replica))
    (reaches : ∀ position, bitstring.test position = true → ∃ destination hops,
      positions.positionOf? destination = some position ∧
        snapshot.Leads node destination hops) :
    Follows snapshot positions node bitstring
      (gather node decision.deliverLocally (branches node decision rest next)) where
  once := nodup_takers_gather _ _ _ _ _ _ _ shared others follows _
  takers taker := by
    rw [mem_takers_gather]
    constructor
    · rintro (⟨taken, rfl⟩ | ⟨replica, listed, takes⟩)
      · exact delivers.1 taken
      · obtain ⟨position, own, inside⟩ := ((follows replica listed).takers taker).1 takes
        exact ⟨position, own, shared.within replica listed position inside⟩
    · rintro ⟨position, own, inside⟩
      rcases covers position inside with here | ⟨replica, listed, within⟩
      · obtain rfl := inverse.injective _ taker node position own here
        exact .inl ⟨delivers.2 ⟨position, own, inside⟩, rfl⟩
      · exact .inr ⟨replica, listed, ((follows replica listed).takers taker).2 ⟨position, own, within⟩⟩
  links hop := by
    have crosses (replica : Replica) (listed : replica ∈ decision.replicas) (destination : NodeId)
        (position : Nat) (own : positions.positionOf? destination = some position)
        (within : replica.bitstring.test position = true) (hops : List Hop) :=
      have ⟨away, found⟩ := goes replica listed destination position own within
      snapshot.leads_of_nextHop node destination (next replica) away.symm found hops
    rw [mem_links_gather]
    constructor
    · rintro ⟨replica, listed, first | later⟩
      · -- A copy is not empty, so it crosses its first link for some destination.
        obtain ⟨position, within⟩ := replica.bitstring.exists_test (shared.inhabited replica listed)
        have inside := shared.within replica listed position within
        obtain ⟨destination, hops, own, leads⟩ := reaches position inside
        obtain ⟨after, rfl, _⟩ := (crosses replica listed destination position own within hops).1 leads
        exact ⟨destination, position, _, own, inside, leads, first ▸ List.mem_cons_self⟩
      · obtain ⟨destination, position, after, own, within, leads, member⟩ :=
          ((follows replica listed).links hop).1 later
        exact ⟨destination, position, _, own, shared.within replica listed position within,
          (crosses replica listed destination position own within _).2 ⟨after, rfl, leads⟩,
          List.mem_cons_of_mem _ member⟩
    · rintro ⟨destination, position, hops, own, inside, leads, member⟩
      rcases covers position inside with here | ⟨replica, listed, within⟩
      · obtain rfl := inverse.injective _ destination node position own here
        rw [(snapshot.leads_self destination hops).1 leads] at member
        cases member
      · obtain ⟨after, rfl, rest⟩ :=
          (crosses replica listed destination position own within hops).1 leads
        refine ⟨replica, listed, (List.mem_cons.1 member).imp_right fun later => ?_⟩
        exact ((follows replica listed).links hop).2
          ⟨destination, position, after, own, within, rest, later⟩

end

theorem exists_nextHop_of_sends (snapshot : Snapshot) (positions : BitPositions)
    (node neighbor : NodeId) (outInterface : InterfaceId) (position : Nat)
    (sends : BierTable.Sends snapshot positions node (neighbor, outInterface) position) :
    ∃ destination next, positions.positionOf? destination = some position ∧ destination ≠ node ∧
      snapshot.nextHop node destination = .ok next ∧ next.node = neighbor ∧
      next.outInterface = outInterface ∧
      snapshot.interfaces.interfaceTo? neighbor node = some next.inInterface := by
  obtain ⟨destination, own, away, way⟩ := sends
  obtain ⟨next, hop, same⟩ := (snapshot.way?_eq_some ..).1 way
  obtain ⟨rfl, rfl⟩ := Prod.mk.inj same
  obtain ⟨_, _, _, _, _, enters⟩ := (snapshot.nextHop_eq_ok ..).1 hop
  exact ⟨destination, next, own, away, hop, rfl, rfl, enters⟩

theorem ofBitstring_eq_gather (snapshot : Snapshot) (tables : List BierTable) (allowance : Nat)
    (node : NodeId) (bitstring : Bitstring) (table : BierTable) (decision : BierDecision)
    (found : tables[node]? = some table) (processed : table.process bitstring = .ok decision)
    (next : Replica → NextHop) (rest : Replica → Spread)
    (crosses : ∀ replica ∈ decision.replicas, (next replica).node = replica.nextHop ∧
      (next replica).outInterface = replica.outInterface ∧
      snapshot.interfaces.interfaceTo? (next replica).node node = some (next replica).inInterface)
    (onward : ∀ replica ∈ decision.replicas,
      ofBitstring snapshot tables allowance (next replica).node replica.bitstring = .ok (rest replica)) :
    ofBitstring snapshot tables (allowance + 1) node bitstring =
      .ok (gather node decision.deliverLocally (branches node decision rest next)) := by
  have each : ∀ replica ∈ decision.replicas,
      branch snapshot node (ofBitstring snapshot tables allowance) replica = .ok { rest replica with
        links := Snapshot.hopFrom node (next replica) :: (rest replica).links } := by
    intro replica listed
    obtain ⟨neighbor, leaves, enters⟩ := crosses replica listed
    have onward := onward replica listed
    rw [neighbor] at onward enters
    simp only [branch, enters, onward, Snapshot.hopFrom, neighbor, leaves]
  simp only [ofBitstring, found, processed, Traversal.mapM_of_forall _ _ _ each, branches]

section
variable (snapshot : Snapshot) (positions : BitPositions) (inverse : positions.Inverse)
  (tables : List BierTable)
  (routed : ∀ node < snapshot.nodeCount, ∃ table, tables[node]? = some table ∧
    BierTable.Routes snapshot positions node table)
include inverse routed

/-- A node processes positions that are within reach. Each copy goes to the next hop that all its
positions have, from where each is one link nearer. -/
theorem exists_process_of_leads (reach : Nat) (node : NodeId) (bitstring : Bitstring)
    (inside : node < snapshot.nodeCount)
    (reached : ∀ position, bitstring.test position = true → ∃ destination hops,
      positions.positionOf? destination = some position ∧
        snapshot.Leads node destination hops ∧ hops.length ≤ reach) :
    ∃ table decision, tables[node]? = some table ∧
      BierTable.Routes snapshot positions node table ∧ table.process bitstring = .ok decision ∧
      (decision.deliverLocally = true ↔
        ∃ position, positions.positionOf? node = some position ∧ bitstring.test position = true) ∧
      (∀ position, bitstring.test position = true →
        positions.positionOf? node = some position ∨
          ∃ replica ∈ decision.replicas, replica.bitstring.test position = true) ∧
      ∀ replica ∈ decision.replicas, ∃ next : NextHop, next.node = replica.nextHop ∧
        next.outInterface = replica.outInterface ∧
        ∀ position, replica.bitstring.test position = true → ∃ destination hops,
          positions.positionOf? destination = some position ∧ destination ≠ node ∧
          snapshot.nextHop node destination = .ok next ∧
          snapshot.Leads next.node destination hops ∧ hops.length < reach := by
  obtain ⟨table, found, routes⟩ := routed node inside
  obtain ⟨decision, processed, delivers, goes, covers⟩ :=
    table.exists_process snapshot positions node routes inverse bitstring fun position held => by
      obtain ⟨destination, hops, own, leads, _⟩ := reached position held
      by_cases here : node = destination
      · exact .inl (here ▸ own)
      · obtain ⟨next, hop⟩ := snapshot.exists_nextHop_of_leads _ _ _ leads here
        exact .inr ⟨_, destination, own, Ne.symm here, snapshot.way?_of_nextHop _ _ next hop⟩
  obtain ⟨shared, _, _⟩ := table.share_of_process bitstring decision processed
  refine ⟨table, decision, found, routes, processed, delivers, covers, fun replica listed => ?_⟩
  -- The way of a copy is that of its positions, and the way decides the interface at its other end.
  have hop (position : Nat) (within : replica.bitstring.test position = true) :=
    exists_nextHop_of_sends snapshot positions node replica.nextHop replica.outInterface position
      (goes replica listed position within)
  obtain ⟨some, within⟩ := replica.bitstring.exists_test (shared.inhabited replica listed)
  obtain ⟨_, next, _, _, _, neighbor, leaves, enters⟩ := hop some within
  refine ⟨next, neighbor, leaves, fun position within => ?_⟩
  obtain ⟨destination, other, own, away, found, neighbor', leaves', enters'⟩ := hop position within
  have same : other = next := by
    obtain ⟨_, _, _⟩ := other
    obtain ⟨_, _, _⟩ := next
    simp_all
  subst same
  obtain ⟨destination', hops, own', leads, short⟩ :=
    reached position (shared.within replica listed position within)
  obtain rfl := inverse.injective _ destination destination' position own own'
  obtain ⟨rest, rfl, rest'⟩ := (snapshot.leads_of_nextHop _ _ other away.symm found hops).1 leads
  exact ⟨destination, rest, own, away, found, rest', short⟩

theorem exists_follows (reach : Nat) (node : NodeId) (bitstring : Bitstring)
    (inside : node < snapshot.nodeCount)
    (reached : ∀ position, bitstring.test position = true → ∃ destination hops,
      positions.positionOf? destination = some position ∧
        snapshot.Leads node destination hops ∧ hops.length ≤ reach) :
    ∃ spread, (∀ allowance > reach,
      ofBitstring snapshot tables allowance node bitstring = .ok spread) ∧
      Follows snapshot positions node bitstring spread := by
  induction reach using Nat.strongRecOn generalizing node bitstring with
  | _ reach ih =>
    obtain ⟨table, decision, found, routes, processed, delivers, covers, goes⟩ :=
      exists_process_of_leads snapshot positions inverse tables routed reach node bitstring inside
        reached
    obtain ⟨shared, _, others⟩ := table.share_of_process bitstring decision processed
    rw [routes.own] at others
    have : Nonempty NextHop := ⟨0, noInterface, noInterface⟩
    choose! next neighbor leaves goes using goes
    have spreads (replica : Replica) (listed : replica ∈ decision.replicas) :
        ∃ spread, (∀ allowance ≥ reach, ofBitstring snapshot tables allowance (next replica).node
          replica.bitstring = .ok spread) ∧
          Follows snapshot positions (next replica).node replica.bitstring spread := by
      obtain ⟨position, within⟩ := replica.bitstring.exists_test (shared.inhabited replica listed)
      obtain ⟨_, _, _, _, hop, _, short⟩ := goes replica listed position within
      obtain ⟨_, _, _, inside, _⟩ := (snapshot.nextHop_eq_ok ..).1 hop
      obtain ⟨spread, result, follows⟩ :=
        ih (reach - 1) (by omega) (next replica).node replica.bitstring inside fun position within => by
          obtain ⟨destination, hops, own, _, _, leads, short⟩ := goes replica listed position within
          exact ⟨destination, hops, own, leads, by omega⟩
      exact ⟨spread, fun allowance enough => result allowance (by omega), follows⟩
    choose! rest result follows using spreads
    have entered (replica : Replica) (listed : replica ∈ decision.replicas) :
        snapshot.interfaces.interfaceTo? (next replica).node node =
          some (next replica).inInterface := by
      obtain ⟨position, within⟩ := replica.bitstring.exists_test (shared.inhabited replica listed)
      obtain ⟨_, _, _, _, hop, _, _⟩ := goes replica listed position within
      obtain ⟨_, _, _, _, _, enters⟩ := (snapshot.nextHop_eq_ok ..).1 hop
      exact enters
    refine ⟨gather node decision.deliverLocally (branches node decision rest next),
      fun allowance enough => ?_, ?_⟩
    · obtain ⟨allowance, rfl⟩ := Nat.exists_eq_add_of_lt (Nat.zero_lt_of_lt enough)
      rw [Nat.zero_add]
      exact ofBitstring_eq_gather snapshot tables allowance node bitstring table decision
        found processed next rest
        (fun replica listed => ⟨neighbor replica listed, leaves replica listed, entered replica listed⟩)
        fun replica listed => result replica listed allowance (by omega)
    · refine follows_gather _ _ _ _ _ _ _ inverse shared delivers others covers follows ?_ ?_
      · intro replica listed destination position own within
        obtain ⟨destination', _, own', away, hop, _, _⟩ := goes replica listed position within
        obtain rfl := inverse.injective _ destination destination' position own own'
        exact ⟨away, hop⟩
      · intro position held
        obtain ⟨destination, hops, own, leads, _⟩ := reached position held
        exact ⟨destination, hops, own, leads⟩

end

/-- Tables and tree agree: the bitstring of the destinations spreads from the source in finitely many
steps, each destination takes the packet once and no other node does, and copies cross exactly the
hops of the tree. -/
theorem ofBitstring_covers_tree (snapshot : Snapshot) (positions : BitPositions)
    (assigned : positions.Assigned) (request : Request) (tree : Tree)
    (built : Tree.build request snapshot = .ok tree)
    (placed : ∀ destination ∈ request.destinations,
      ∃ position, positions.positionOf? destination = some position) :
    ∃ tables bitstring spread, BierTable.buildAll snapshot positions = .ok tables ∧
      positions.bitstringFor request.destinations.toList = .ok bitstring ∧
      (∀ allowance > snapshot.nodeCount,
        ofBitstring snapshot tables allowance request.source bitstring = .ok spread) ∧
      (∀ node, spread.takers.count node = if node ∈ request.destinations then 1 else 0) ∧
      ∀ hop, hop ∈ spread.links ↔ hop ∈ tree.hops := by
  have inverse := positions.inverse_of_assigned assigned
  obtain ⟨tables, tabled, routed⟩ := BierTable.exists_buildAll snapshot positions inverse
  have listed (node : NodeId) : node ∈ request.destinations.toList ↔ node ∈ request.destinations :=
    ExtTreeSet.mem_toList
  obtain ⟨bitstring, addressed, test⟩ := positions.exists_bitstringFor inverse
    request.destinations.toList fun node member => placed node ((listed node).1 member)
  have members (node : NodeId) : node ∈ request.destinations ↔
      ∃ position, positions.positionOf? node = some position ∧ bitstring.test position = true := by
    constructor
    · intro member
      obtain ⟨position, own⟩ := placed node member
      exact ⟨position, own, (test position).2 ⟨node, (listed node).2 member, own⟩⟩
    · rintro ⟨position, own, inside⟩
      obtain ⟨other, member, own'⟩ := (test position).1 inside
      rw [inverse.injective _ node other position own own']
      exact (listed other).1 member
  obtain ⟨spread, result, follows⟩ := exists_follows snapshot positions inverse tables routed
    snapshot.nodeCount request.source bitstring (Tree.source_lt_nodeCount request snapshot tree built)
    fun position within => by
      obtain ⟨destination, member, own⟩ := (test position).1 within
      obtain ⟨hops, path⟩ :=
        Tree.exists_path request snapshot tree built destination ((listed destination).1 member)
      exact ⟨destination, hops, own, snapshot.leads_of_path _ _ hops path,
        snapshot.length_pathWithin_le _ _ _ hops path⟩
  refine ⟨tables, bitstring, spread, tabled, addressed, result, fun node => ?_, fun hop => ?_⟩
  · rw [List.Nodup.count follows.once]
    simp only [follows.takers, members]
  · rw [follows.links, Tree.mem_hops request snapshot tree built]
    constructor
    · rintro ⟨destination, position, hops, own, within, leads, crosses⟩
      have member := (members destination).2 ⟨position, own, within⟩
      obtain ⟨walk, path⟩ := Tree.exists_path request snapshot tree built destination member
      obtain rfl := leads.unique _ _ _ hops walk (snapshot.leads_of_path _ _ walk path)
      exact ⟨destination, member, hops, path, crosses⟩
    · rintro ⟨destination, member, hops, path, crosses⟩
      obtain ⟨position, own, within⟩ := (members destination).1 member
      exact ⟨destination, position, hops, own, within, snapshot.leads_of_path _ _ hops path, crosses⟩

def diamondPositions : BitPositions := (BitPositions.sequential [1, 3]).toOption.getD .empty

theorem ofBitstring_covers_tree_diamond :
    ∃ tree tables bitstring spread, Tree.build diamondSchedule[0] (.diamond 0 1) = .ok tree ∧
      BierTable.buildAll (.diamond 0 1) diamondPositions = .ok tables ∧
      diamondPositions.bitstringFor [1, 3] = .ok bitstring ∧
      (∀ allowance > 4, ofBitstring (.diamond 0 1) tables allowance 0 bitstring = .ok spread) ∧
      spread.takers.count 1 = 1 ∧ spread.takers.count 2 = 0 ∧ spread.takers.count 3 = 1 ∧
      ∀ hop, hop ∈ spread.links ↔ hop ∈ tree.hops := by
  have given : (BitPositions.sequential [1, 3]).isOk = true := by decide +kernel
  have assigned : diamondPositions.Assigned := by
    unfold diamondPositions
    cases found : BitPositions.sequential [1, 3] with
    | error error => rw [found] at given; cases given
    | ok positions => exact BitPositions.assigned_sequential _ positions found
  have placed : ∀ destination ∈ diamondSchedule[0].destinations.toList,
      (diamondPositions.positionOf? destination).isSome = true := by decide +kernel
  have succeeds : (Tree.build diamondSchedule[0] (.diamond 0 1)).isOk = true := by decide +kernel
  have listed : diamondSchedule[0].destinations.toList = [1, 3] := by decide +kernel
  cases built : Tree.build diamondSchedule[0] (.diamond 0 1) with
  | error error => rw [built] at succeeds; cases succeeds
  | ok tree =>
    obtain ⟨tables, bitstring, spread, tabled, addressed, result, takers, links⟩ :=
      ofBitstring_covers_tree (.diamond 0 1) diamondPositions assigned diamondSchedule[0] tree built
        fun destination member =>
          Option.isSome_iff_exists.1 (placed destination (ExtTreeSet.mem_toList.2 member))
    rw [listed] at addressed
    exact ⟨tree, tables, bitstring, spread, rfl, tabled, addressed, result,
      (takers 1).trans (if_pos (by decide +kernel)), (takers 2).trans (if_neg (by decide +kernel)),
      (takers 3).trans (if_pos (by decide +kernel)), links⟩

end Spread
end Multicast
