import Multicast.Proofs.Unicast.Grammar
import Multicast.Proofs.Unicast.Path
import Mathlib.Data.List.Induction

/-!
Snapshots that state files make, one file after the other. A file that fails leaves the records in front
of its bad line. Main statement: a next hop is either unknown or resolved whatever files were applied,
and a file that applies decides on the answers its records mention, by the last of them, and on no other.
-/

namespace Multicast
open Text

namespace UnicastRecord

def decides (node target : NodeId) : UnicastRecord → Bool
  | unreachable one other => one = node ∧ other = target
  | route one other _ _ _ => one = node ∧ other = target

def candidates : UnicastRecord → List NodeId
  | unreachable _ _ => []
  | route _ _ next _ _ => [next]

def ends : UnicastRecord → List LinkEnd
  | unreachable _ _ => []
  | route node _ next interface nextInterface =>
    [⟨node, next, interface⟩, ⟨next, node, nextInterface⟩]

def lastCandidates? (records : List UnicastRecord) (node target : NodeId) : Option (List NodeId) :=
  (records.filter (·.decides node target)).getLast?.map candidates

theorem lastCandidates?_concat (records : List UnicastRecord) (record : UnicastRecord)
    (node target : NodeId) : lastCandidates? (records ++ [record]) node target =
      if record.decides node target then some record.candidates
      else lastCandidates? records node target := by
  unfold lastCandidates?
  rw [getLast?_filter_concat]
  split
  · rfl
  · rfl

theorem towards_apply (snapshot : Snapshot) (record : UnicastRecord) (node target : NodeId) :
    (record.apply snapshot).nextHops.towards node target =
      if record.decides node target then record.candidates
      else snapshot.nextHops.towards node target := by
  cases record with
  | unreachable one other =>
    exact (snapshot.nextHops.towards_drop one other node target).trans (by simp [decides, candidates])
  | route one other next interface nextInterface =>
    exact (snapshot.nextHops.towards_set one other [next] node target).trans
      (by simp [decides, candidates])

theorem interfaces_apply (snapshot : Snapshot) (record : UnicastRecord) :
    (record.apply snapshot).interfaces = snapshot.interfaces.recordAll record.ends := by
  cases record with
  | unreachable => rfl
  | route => rfl

def Fits (nodeCount : Nat) (record : UnicastRecord) : Prop :=
  (∀ next ∈ record.candidates, next < nodeCount) ∧ ∀ linkEnd ∈ record.ends, 1 ≤ linkEnd.interface

theorem fits_of_describes (nodeCount : Nat) (fields : List (List Char)) (record : UnicastRecord)
    (describes : Describes nodeCount fields record) : record.Fits nodeCount := by
  cases describes with
  | unreachable => exact ⟨List.forall_mem_nil _, List.forall_mem_nil _⟩
  | route _ _ _ _ _ node target next value nextValue _ _ nextRead =>
    refine ⟨List.forall_mem_singleton.2 nextRead.2, ?_⟩
    exact List.forall_mem_cons.2 ⟨Nat.le_add_left 1 value,
      List.forall_mem_singleton.2 (Nat.le_add_left 1 nextValue)⟩

theorem Listing.fits (nodeCount : Nat) (lines : List Line) (records : List UnicastRecord)
    (listing : Listing nodeCount lines records) : ∀ record ∈ records, record.Fits nodeCount := by
  induction listing with
  | nil => exact List.forall_mem_nil _
  | blank text rest records blank later ih => exact ih
  | record fields rest record records inside describes later ih =>
    exact List.forall_mem_cons.2 ⟨fits_of_describes nodeCount fields record describes, ih⟩

end UnicastRecord

namespace Snapshot
open UnicastRecord

/-- The last record about a route decides on it. -/
theorem towards_replay (snapshot : Snapshot) (records : List UnicastRecord)
    (node target : NodeId) : (snapshot.replay records).nextHops.towards node target =
      (lastCandidates? records node target).getD (snapshot.nextHops.towards node target) := by
  induction records using List.reverseRecOn with
  | nil => rfl
  | append_singleton records record ih =>
    have last := towards_apply (snapshot.replay records) record node target
    rw [replay_append, lastCandidates?_concat]
    refine last.trans ?_
    rw [ih]
    split
    · rfl
    · rfl

theorem interfaces_replay (snapshot : Snapshot) (records : List UnicastRecord) :
    (snapshot.replay records).interfaces =
      snapshot.interfaces.recordAll (records.flatMap ends) := by
  induction records generalizing snapshot with
  | nil => rfl
  | cons record rest ih =>
    have later := ih (record.apply snapshot)
    rw [interfaces_apply] at later
    refine later.trans ?_
    unfold InterfaceMap.recordAll
    rw [List.flatMap_cons, List.foldl_append]

theorem interfaceTo?_replay (snapshot : Snapshot) (records : List UnicastRecord)
    (node neighbor : NodeId) :
    (snapshot.replay records).interfaces.interfaceTo? node neighbor =
      (LinkEnd.last? (records.flatMap ends) node neighbor).or
        (snapshot.interfaces.interfaceTo? node neighbor) := by
  rw [interfaces_replay, InterfaceMap.interfaceTo?_recordAll]

/-- A candidate is the only one, a node of the network, and linked at both ends. Interfaces are counted
from one. -/
structure Resolves (snapshot : Snapshot) : Prop where
  linked : ∀ node target, snapshot.nextHops.towards node target = [] ∨
    ∃ next, snapshot.nextHops.towards node target = [next] ∧ next < snapshot.nodeCount ∧
      (snapshot.interfaces.interfaceTo? node next).isSome = true ∧
      (snapshot.interfaces.interfaceTo? next node).isSome = true
  counted : ∀ node neighbor, ∀ interface ∈ snapshot.interfaces.interfaceTo? node neighbor,
    1 ≤ interface

theorem resolves_empty (epoch nodeCount : Nat) : (empty epoch nodeCount).Resolves where
  linked _ _ := .inl (by simp [empty, NextHops.towards, NextHops.empty])
  counted _ _ := by simp [empty, InterfaceMap.interfaceTo?, InterfaceMap.empty]

section
variable (snapshot : Snapshot) (resolves : snapshot.Resolves)
include resolves

theorem Resolves.apply (record : UnicastRecord) (fits : record.Fits snapshot.nodeCount) :
    (record.apply snapshot).Resolves := by
  obtain ⟨within, counted⟩ := fits
  have nodeCount : (record.apply snapshot).nodeCount = snapshot.nodeCount :=
    snapshot.replay_nodeCount [record]
  have recorded (node neighbor : NodeId) :
      (record.apply snapshot).interfaces.interfaceTo? node neighbor =
        (LinkEnd.last? record.ends node neighbor).or
          (snapshot.interfaces.interfaceTo? node neighbor) := by
    rw [interfaces_apply, InterfaceMap.interfaceTo?_recordAll]
  have presented (linkEnd : LinkEnd) (listed : linkEnd ∈ record.ends) :
      ((record.apply snapshot).interfaces.interfaceTo? linkEnd.node
        linkEnd.neighbor).isSome = true := by
    rw [recorded, Option.isSome_or, LinkEnd.isSome_last? _ _ listed, Bool.true_or]
  have kept (node neighbor : NodeId)
      (known : (snapshot.interfaces.interfaceTo? node neighbor).isSome = true) :
      ((record.apply snapshot).interfaces.interfaceTo? node neighbor).isSome = true := by
    rw [recorded, Option.isSome_or, known, Bool.or_true]
  constructor
  · intro node target
    rw [towards_apply, nodeCount]
    split
    · next about =>
      cases record with
      | unreachable => exact .inl rfl
      | route one other next interface nextInterface =>
        obtain ⟨rfl, rfl⟩ : one = node ∧ other = target := of_decide_eq_true about
        exact .inr ⟨next, rfl, within next List.mem_cons_self,
          presented ⟨one, next, interface⟩ List.mem_cons_self,
          presented ⟨next, one, nextInterface⟩ (List.mem_cons_of_mem _ List.mem_cons_self)⟩
    · rcases resolves.linked node target with none | ⟨next, only, below, forth, back⟩
      · exact .inl none
      · exact .inr ⟨next, only, below, kept node next forth, kept next node back⟩
  · intro node neighbor interface found
    rw [recorded] at found
    cases last : LinkEnd.last? record.ends node neighbor with
    | none =>
      rw [last] at found
      exact resolves.counted node neighbor interface found
    | some given =>
      rw [last] at found
      obtain ⟨linkEnd, listed, rfl⟩ := LinkEnd.exists_of_last? _ _ _ given last
      cases found
      exact counted linkEnd listed

theorem Resolves.replay (records : List UnicastRecord)
    (fits : ∀ record ∈ records, record.Fits snapshot.nodeCount) :
    (snapshot.replay records).Resolves := by
  induction records generalizing snapshot with
  | nil => exact resolves
  | cons record rest ih =>
    obtain ⟨first, others⟩ := List.forall_mem_cons.1 fits
    refine ih _ (Resolves.apply snapshot resolves record first) ?_
    rw [show (record.apply snapshot).nodeCount = snapshot.nodeCount from
      snapshot.replay_nodeCount [record]]
    exact others

theorem Resolves.nextHop (node destination : NodeId) (inside : node < snapshot.nodeCount)
    (known : destination < snapshot.nodeCount) :
    (snapshot.nextHops.towards node destination = [] ∧
      snapshot.nextHop node destination = .error (.noRoute node destination)) ∨
    ∃ hop, snapshot.nextHops.towards node destination = [hop.node] ∧
      snapshot.nextHop node destination = .ok hop ∧ hop.node < snapshot.nodeCount ∧
      1 ≤ hop.outInterface ∧ 1 ≤ hop.inInterface := by
  rcases resolves.linked node destination with none | ⟨next, only, below, forth, back⟩
  · refine .inl ⟨none, ?_⟩
    unfold Snapshot.nextHop NextHops.first?
    rw [(snapshot.checkNode_eq_ok node ()).2 inside,
      (snapshot.checkNode_eq_ok destination ()).2 known, none]
    rfl
  · obtain ⟨leaving, out⟩ := Option.isSome_iff_exists.1 forth
    obtain ⟨entering, into⟩ := Option.isSome_iff_exists.1 back
    have first : snapshot.nextHops.first? node destination = some next := by
      rw [NextHops.first?, only]
      rfl
    exact .inr ⟨⟨next, leaving, entering⟩, only,
      (nextHop_eq_ok ..).2 ⟨inside, known, first, below, out, into⟩, below,
      resolves.counted _ _ leaving out, resolves.counted _ _ entering into⟩

end

theorem Alike.nextHop (one other : Snapshot) (alike : one.Alike other)
    (node destination : NodeId) : one.nextHop node destination = other.nextHop node destination := by
  unfold Snapshot.nextHop checkNode NextHops.first?
  simp only [alike.nodeCount, alike.towards, alike.interfaceTo]

/-! ## One file after the other -/

def afterFiles (snapshot : Snapshot) (files : List (List UInt8)) : Snapshot :=
  files.foldl (fun before file => (before.applyFile file).2) snapshot

section
variable (snapshot later : Snapshot) (file : List UInt8)

theorem listing_of_applyFile (count : Nat)
    (applied : snapshot.applyFile file = (.ok count, later)) :
    ∃ records, Listing snapshot.nodeCount (lines file) records ∧ count = records.length ∧
      later = snapshot.replay records := by
  obtain ⟨records, read, counted, replayed⟩ := exists_records_of_applyFile _ _ _ _ applied
  exact ⟨records, (lineRecords_eq_ok ..).1 read, counted, replayed⟩

theorem applyFile_of_listing (records : List UnicastRecord)
    (listing : Listing snapshot.nodeCount (lines file) records) :
    snapshot.applyFile file = (.ok records.length, snapshot.replay records) := by
  have applied := applyLines_of_records 1 0 snapshot (lines file)
  rw [(lineRecords_eq_ok ..).2 listing] at applied
  rw [← Nat.zero_add records.length]
  exact applied

theorem listing_of_applyFile_error (error : SnapshotError)
    (failed : snapshot.applyFile file = (.error error, later)) :
    ∃ line fault records, error = .malformed (line + 1) fault ∧
      Listing snapshot.nodeCount ((lines file).take line) records ∧
      later = snapshot.replay records := by
  have each := applyLines_of_records 1 0 snapshot (lines file)
  cases read : lineRecords snapshot.nodeCount 1 (lines file) with
  | ok records =>
    rw [read] at each
    cases failed.symm.trans each
  | error other =>
    rw [read] at each
    obtain rfl : error = other :=
      Except.error.inj ((congrArg Prod.fst failed).symm.trans each)
    obtain ⟨good, records, fault, front, listed, same, left⟩ :=
      applyLines_of_fault 1 0 snapshot (lines file) error read
    refine ⟨good.length, fault, records, by rw [same, Nat.add_comm], ?_,
      (congrArg Prod.snd failed).symm.trans left⟩
    rw [← List.prefix_iff_eq_take.1 front]
    exact (lineRecords_eq_ok ..).1 listed

theorem exists_replay_of_applyFile : ∃ records, (snapshot.applyFile file).2 = snapshot.replay records ∧
    ∀ record ∈ records, record.Fits snapshot.nodeCount := by
  rcases applied : snapshot.applyFile file with ⟨error | count, later⟩
  · obtain ⟨_, _, records, _, listing, rfl⟩ := listing_of_applyFile_error _ _ _ _ applied
    exact ⟨records, rfl, Listing.fits _ _ _ listing⟩
  · obtain ⟨records, listing, _, rfl⟩ := listing_of_applyFile _ _ _ _ applied
    exact ⟨records, rfl, Listing.fits _ _ _ listing⟩

end

theorem sized_afterFiles (epoch nodeCount : Nat) (files : List (List UInt8)) :
    ((empty epoch nodeCount).afterFiles files).Sized nodeCount ∧
      ((empty epoch nodeCount).afterFiles files).Resolves := by
  induction files using List.reverseRecOn with
  | nil => exact ⟨sized_empty epoch nodeCount, resolves_empty epoch nodeCount⟩
  | append_singleton files file ih =>
    obtain ⟨sized, resolves⟩ := ih
    have last : (empty epoch nodeCount).afterFiles (files ++ [file]) =
        (((empty epoch nodeCount).afterFiles files).applyFile file).2 := List.foldl_append
    obtain ⟨records, replayed, fits⟩ :=
      exists_replay_of_applyFile ((empty epoch nodeCount).afterFiles files) file
    rw [last, replayed]
    exact ⟨Sized.replay _ nodeCount sized records, Resolves.replay _ resolves records fits⟩

/-- Whatever files were applied to a network, a next hop is unknown, or it is a node of the network with
an interface at both ends. A file that applies decides on the routes and on the ends of links that its
lines mention, by the last record of each, and on no other; applied again it changes no answer. A file
that fails leaves the records of the lines in front of the bad one. -/
theorem lookups_afterFiles (epoch nodeCount : Nat) (files : List (List UInt8)) (before : Snapshot)
    (reached : before = (empty epoch nodeCount).afterFiles files) :
    (∀ node < nodeCount, ∀ destination < nodeCount,
      (before.nextHops.towards node destination = [] ∧
        before.nextHop node destination = .error (.noRoute node destination)) ∨
      ∃ hop, before.nextHops.towards node destination = [hop.node] ∧
        before.nextHop node destination = .ok hop ∧ hop.node < nodeCount ∧
        1 ≤ hop.outInterface ∧ 1 ≤ hop.inInterface) ∧
    (∀ file count later, before.applyFile file = (.ok count, later) →
      ∃ records, Listing nodeCount (lines file) records ∧ count = records.length ∧
        (∀ node target, later.nextHops.towards node target =
          (lastCandidates? records node target).getD (before.nextHops.towards node target)) ∧
        (∀ node neighbor, later.interfaces.interfaceTo? node neighbor =
          (LinkEnd.last? (records.flatMap ends) node neighbor).or
            (before.interfaces.interfaceTo? node neighbor)) ∧
        ∃ again, later.applyFile file = (.ok count, again) ∧ again.Alike later ∧
          ∀ node destination, again.nextHop node destination = later.nextHop node destination) ∧
    ∀ file error later, before.applyFile file = (.error error, later) →
      ∃ line fault records, error = .malformed (line + 1) fault ∧
        Listing nodeCount ((lines file).take line) records ∧ later = before.replay records := by
  subst reached
  obtain ⟨sized, resolves⟩ := sized_afterFiles epoch nodeCount files
  generalize (empty epoch nodeCount).afterFiles files = before at sized resolves
  obtain rfl := sized.nodeCount
  refine ⟨fun node inside destination known =>
      Resolves.nextHop before resolves node destination inside known, ?_, ?_⟩
  · intro file count later applied
    obtain ⟨records, listing, counted, rfl⟩ := listing_of_applyFile before later file count applied
    have alike := alike_replay_replay before before.nodeCount sized records
    refine ⟨records, listing, counted, before.towards_replay records,
      before.interfaceTo?_replay records, _, ?_, alike, Alike.nextHop _ _ alike⟩
    rw [counted]
    refine applyFile_of_listing _ file records ?_
    rwa [replay_nodeCount]
  · intro file error later failed
    exact listing_of_applyFile_error before later file error failed

def interrupted : List (List UInt8) :=
  [encodeUtf8 "0,2,1,0,0\n1,2,2,1,0\n", encodeUtf8 "0,2,-1,-1,-1\n1,2,7\n"]

def moving : List UInt8 := encodeUtf8 "0,1,1,4,0\n\n 0 ,2,+1,3,-0\r\n"

/-- The drop of the bad file stays, the link is where the last line leaves it, and the route that no line
mentions is untouched. -/
theorem lookups_afterFiles_interrupted :
    ((empty 0 3).afterFiles interrupted).nextHop 0 2 = .error (.noRoute 0 2) ∧
    ∃ later records, ((empty 0 3).afterFiles interrupted).applyFile moving = (.ok 2, later) ∧
      Listing 3 (lines moving) records ∧ records.length = 2 ∧
      later.nextHop 0 2 = .ok ⟨1, 4, 1⟩ ∧ later.nextHop 1 2 = .ok ⟨2, 2, 1⟩ ∧
      ∃ again, later.applyFile moving = (.ok 2, again) ∧ again.Alike later := by
  generalize reached : (empty 0 3).afterFiles interrupted = before
  obtain ⟨resolved, applies, _⟩ := lookups_afterFiles 0 3 interrupted before reached.symm
  have dropped : before.nextHops.towards 0 2 = [] := by
    rw [← reached]
    decide +kernel
  have counted : (before.applyFile moving).1 = .ok 2 := by
    rw [← reached]
    decide +kernel
  have hops : (before.applyFile moving).2.nextHop 0 2 = .ok ⟨1, 4, 1⟩ ∧
      (before.applyFile moving).2.nextHop 1 2 = .ok ⟨2, 2, 1⟩ := by
    rw [← reached]
    decide +kernel
  have applied : before.applyFile moving = (.ok 2, (before.applyFile moving).2) :=
    Prod.ext counted rfl
  obtain ⟨records, listing, length, _, _, again, twice, alike, _⟩ := applies _ _ _ applied
  refine ⟨?_, _, records, applied, listing, length.symm, hops.1, hops.2, again, twice, alike⟩
  rcases resolved 0 (by decide) 2 (by decide) with ⟨_, unknown⟩ | ⟨hop, only, _⟩
  · exact unknown
  · rw [dropped] at only
    cases only

end Snapshot
end Multicast
