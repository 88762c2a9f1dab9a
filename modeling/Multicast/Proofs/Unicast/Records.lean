import Multicast.Unicast.Record
import Multicast.Proofs.Unicast.Sequence
import Multicast.Proofs.Unicast.Interfaces

/-!
Records of state files. A file whose lines are all good is a list of records, the same on top of any
snapshot of its network, and each record either overwrites an answer or leaves it. Main statements: a
good file applies its records one after the other, and applied once more they change no answer.
-/

namespace Multicast
open Text

namespace NextHops

theorem towards_set (hops : NextHops) (node destination : NodeId) (candidates : List NodeId)
    (one other : NodeId) :
    (hops.set node destination candidates).towards one other =
      if node = one ∧ destination = other then candidates else hops.towards one other := by
  unfold towards set
  rw [Std.ExtTreeMap.getElem?_insert]
  simp only [Std.compare_eq_iff_eq, Prod.mk.injEq]
  split
  · rfl
  · rfl

theorem towards_drop (hops : NextHops) (node destination one other : NodeId) :
    (hops.drop node destination).towards one other =
      if node = one ∧ destination = other then [] else hops.towards one other := by
  unfold towards drop
  rw [Std.ExtTreeMap.getElem?_erase]
  simp only [Std.compare_eq_iff_eq, Prod.mk.injEq]
  split
  · rfl
  · rfl

end NextHops

namespace Snapshot

structure Sized (snapshot : Snapshot) (nodeCount : Nat) : Prop where
  nodeCount : snapshot.nodeCount = nodeCount
  made : snapshot.interfaces.Made

theorem sized_empty (epoch nodeCount : Nat) : (empty epoch nodeCount).Sized nodeCount :=
  ⟨rfl, .empty⟩

theorem Sized.addLink (snapshot : Snapshot) (nodeCount : Nat)
    (sized : snapshot.Sized nodeCount) (one other : NodeId) (first second : InterfaceId) :
    (snapshot.addLink one first other second).Sized nodeCount :=
  ⟨sized.nodeCount, .insert _ _ _ _ (.insert _ _ _ _ sized.made)⟩

theorem sized_diamond (epoch : Nat) (middle : NodeId) : (diamond epoch middle).Sized 4 := by
  have linked := ((((sized_empty epoch 4).addLink _ _ 0 1 1 1).addLink _ _ 0 2 2 1).addLink _ _
    1 3 2 1).addLink _ _ 2 3 2 2
  exact ⟨rfl, linked.made⟩

def replay (snapshot : Snapshot) (records : List UnicastRecord) : Snapshot :=
  records.foldl UnicastRecord.apply snapshot

theorem replay_append (snapshot : Snapshot) (records more : List UnicastRecord) :
    snapshot.replay (records ++ more) = (snapshot.replay records).replay more :=
  List.foldl_append

theorem replay_keeps (kept : Snapshot → Prop)
    (keeps : ∀ snapshot record, kept snapshot → kept (UnicastRecord.apply snapshot record))
    (snapshot : Snapshot) (records : List UnicastRecord) (holds : kept snapshot) :
    kept (snapshot.replay records) := by
  induction records generalizing snapshot with
  | nil => exact holds
  | cons record rest ih => exact ih _ (keeps snapshot record holds)

theorem replay_epoch (snapshot : Snapshot) (records : List UnicastRecord) :
    (snapshot.replay records).epoch = snapshot.epoch := by
  refine replay_keeps (·.epoch = snapshot.epoch) (fun before record holds => ?_) snapshot records rfl
  cases record with
  | unreachable => exact holds
  | route => exact holds

theorem replay_nodeCount (snapshot : Snapshot) (records : List UnicastRecord) :
    (snapshot.replay records).nodeCount = snapshot.nodeCount := by
  refine replay_keeps (·.nodeCount = snapshot.nodeCount) (fun before record holds => ?_) snapshot
    records rfl
  cases record with
  | unreachable => exact holds
  | route => exact holds

theorem Sized.replay (snapshot : Snapshot) (nodeCount : Nat) (sized : snapshot.Sized nodeCount)
    (records : List UnicastRecord) : (snapshot.replay records).Sized nodeCount := by
  refine replay_keeps (·.Sized nodeCount) (fun before record holds => ?_) snapshot records sized
  cases record with
  | unreachable => exact ⟨holds.nodeCount, holds.made⟩
  | route node target next interface nextInterface =>
    exact Sized.addLink { before with nextHops := before.nextHops.set node target [next] } nodeCount
      ⟨holds.nodeCount, holds.made⟩ node next interface nextInterface

theorem replay_withEpoch (snapshot : Snapshot) (epoch : Nat) (records : List UnicastRecord) :
    ({ snapshot with epoch } : Snapshot).replay records =
      { snapshot.replay records with epoch } := by
  induction records generalizing snapshot with
  | nil => rfl
  | cons record rest ih =>
    have first : UnicastRecord.apply { snapshot with epoch } record =
        { UnicastRecord.apply snapshot record with epoch } := by
      cases record with
      | unreachable => rfl
      | route => rfl
    exact (congrArg (Snapshot.replay · rest) first).trans (ih _)

def lineRecords (nodeCount line : Nat) : List Line → Except SnapshotError (List UnicastRecord)
  | [] => .ok []
  | none :: _ => .error (.malformed line (.unreadable invalidUtf8))
  | some text :: rest =>
    if isAllBlank text then lineRecords nodeCount (line + 1) rest
    else match UnicastRecord.ofText nodeCount text with
      | .error fault => .error (.malformed line fault)
      | .ok record => (lineRecords nodeCount (line + 1) rest).map (record :: ·)

def fileRecords (nodeCount : Nat) (bytes : List UInt8) : Except SnapshotError (List UnicastRecord) :=
  lineRecords nodeCount 1 (lines bytes)

/-- The error of the first bad line does not depend on the snapshot, and neither do the records if no
line is bad. -/
theorem applyLines_of_records (line count : Nat) (snapshot : Snapshot) (lines : List Line) :
    match lineRecords snapshot.nodeCount line lines with
    | .error error => (snapshot.applyLines line count lines).1 = .error error
    | .ok records => snapshot.applyLines line count lines =
        (.ok (count + records.length), snapshot.replay records) := by
  induction lines generalizing line count snapshot with
  | nil => rfl
  | cons first rest ih =>
    cases first with
    | none => rfl
    | some text =>
      unfold applyLines lineRecords
      by_cases blank : isAllBlank text = true
      · simp only [if_pos blank]
        exact ih (line + 1) count snapshot
      · simp only [if_neg blank]
        cases UnicastRecord.ofText snapshot.nodeCount text with
        | error fault => rfl
        | ok record =>
          specialize ih (line + 1) (count + 1) (UnicastRecord.apply snapshot record)
          rw [show (UnicastRecord.apply snapshot record).nodeCount = snapshot.nodeCount from
            snapshot.replay_nodeCount [record]] at ih
          dsimp only
          generalize lineRecords snapshot.nodeCount (line + 1) rest = later at ih
          cases later with
          | error error => exact ih
          | ok records =>
            exact ih.trans (by rw [Nat.add_assoc, Nat.add_comm 1]; rfl)

theorem exists_records_of_applyFile (snapshot later : Snapshot) (bytes : List UInt8) (count : Nat)
    (applied : snapshot.applyFile bytes = (.ok count, later)) :
    ∃ records, fileRecords snapshot.nodeCount bytes = .ok records ∧ count = records.length ∧
      later = snapshot.replay records := by
  have each := applyLines_of_records 1 0 snapshot (lines bytes)
  unfold applyFile at applied
  unfold fileRecords
  rw [applied] at each
  cases found : lineRecords snapshot.nodeCount 1 (lines bytes) with
  | error error =>
    rw [found] at each
    cases each
  | ok records =>
    rw [found] at each
    have counted := Except.ok.inj (congrArg Prod.fst each)
    exact ⟨records, rfl, counted.trans (Nat.zero_add _), congrArg Prod.snd each⟩

theorem applyLines_of_fault (line count : Nat) (snapshot : Snapshot) (lines : List Line)
    (error : SnapshotError) (failed : lineRecords snapshot.nodeCount line lines = .error error) :
    ∃ good records fault, good <+: lines ∧
      lineRecords snapshot.nodeCount line good = .ok records ∧
      error = .malformed (line + good.length) fault ∧
      (snapshot.applyLines line count lines).2 = snapshot.replay records := by
  induction lines generalizing line count snapshot with
  | nil => cases failed
  | cons first rest ih =>
    cases first with
    | none =>
      cases failed
      exact ⟨[], [], _, List.nil_prefix, rfl, rfl, rfl⟩
    | some text =>
      unfold lineRecords at failed
      unfold applyLines
      by_cases blank : isAllBlank text = true
      · rw [if_pos blank] at failed ⊢
        obtain ⟨good, records, fault, front, listed, rfl, left⟩ := ih _ count _ failed
        refine ⟨some text :: good, records, fault, (List.prefix_cons_inj _).2 front, ?_, ?_, left⟩
        · rw [lineRecords, if_pos blank, listed]
        · rw [List.length_cons, Nat.add_assoc, Nat.add_comm 1]
      · rw [if_neg blank] at failed ⊢
        cases found : UnicastRecord.ofText snapshot.nodeCount text with
        | error fault =>
          rw [found] at failed
          cases failed
          exact ⟨[], [], fault, List.nil_prefix, rfl, rfl, rfl⟩
        | ok record =>
          rw [found] at failed
          dsimp only at failed ⊢
          have nodeCount : (record.apply snapshot).nodeCount = snapshot.nodeCount :=
            snapshot.replay_nodeCount [record]
          specialize ih (line + 1) (count + 1) (record.apply snapshot)
          rw [nodeCount] at ih
          cases later : lineRecords snapshot.nodeCount (line + 1) rest with
          | ok records =>
            rw [later] at failed
            cases failed
          | error other =>
            rw [later] at failed
            cases failed
            obtain ⟨good, records, fault, front, listed, rfl, left⟩ := ih later
            refine ⟨some text :: good, record :: records, fault,
              (List.prefix_cons_inj _).2 front, ?_, ?_, left⟩
            · rw [lineRecords, if_neg blank, found, listed]
              rfl
            · rw [List.length_cons, Nat.add_assoc, Nat.add_comm 1]

/-- The same answers to all questions on next hops and interfaces. -/
structure Alike (one other : Snapshot) : Prop where
  epoch : one.epoch = other.epoch
  nodeCount : one.nodeCount = other.nodeCount
  towards : ∀ node destination,
    one.nextHops.towards node destination = other.nextHops.towards node destination
  interfaceTo : ∀ node neighbor,
    one.interfaces.interfaceTo? node neighbor = other.interfaces.interfaceTo? node neighbor
  neighborOn : ∀ node interface,
    one.interfaces.neighborOn? node interface = other.interfaces.neighborOn? node interface

/-- Whatever the snapshot, the records leave the answer as it was, or they give one of their own. -/
inductive Settles {α : Type} (answer : Snapshot → α) (records : List UnicastRecord) : Prop where
  | leaves (same : ∀ snapshot : Snapshot, answer (snapshot.replay records) = answer snapshot)
  | gives (given : α) (same : ∀ snapshot : Snapshot, answer (snapshot.replay records) = given)

theorem settles_of_each {α : Type} (answer : Snapshot → α)
    (each : ∀ record, Settles answer [record]) (records : List UnicastRecord) :
    Settles answer records := by
  induction records with
  | nil => exact .leaves fun _ => rfl
  | cons record rest ih =>
    cases ih with
    | gives given later => exact .gives given fun snapshot => later _
    | leaves later =>
      cases each record with
      | gives given first => exact .gives given fun snapshot => (later _).trans (first snapshot)
      | leaves first => exact .leaves fun snapshot => (later _).trans (first snapshot)

theorem settles_towards (node destination : NodeId) (records : List UnicastRecord) :
    Settles (·.nextHops.towards node destination) records := by
  refine settles_of_each _ (fun record => ?_) records
  cases record with
  | unreachable one target =>
    have after (snapshot : Snapshot) := snapshot.nextHops.towards_drop one target node destination
    by_cases same : one = node ∧ target = destination
    · exact .gives [] fun snapshot => (after snapshot).trans (if_pos same)
    · exact .leaves fun snapshot => (after snapshot).trans (if_neg same)
  | route one target next =>
    have after (snapshot : Snapshot) :=
      snapshot.nextHops.towards_set one target [next] node destination
    by_cases same : one = node ∧ target = destination
    · exact .gives [next] fun snapshot => (after snapshot).trans (if_pos same)
    · exact .leaves fun snapshot => (after snapshot).trans (if_neg same)

theorem settles_interfaceTo? (node neighbor : NodeId) (records : List UnicastRecord) :
    Settles (·.interfaces.interfaceTo? node neighbor) records := by
  refine settles_of_each _ (fun record => ?_) records
  cases record with
  | unreachable => exact .leaves fun _ => rfl
  | route one _ next interface nextInterface =>
    have after (snapshot : Snapshot) : ((snapshot.interfaces.insert one next interface).insert
        next one nextInterface).interfaceTo? node neighbor =
          if next = node ∧ one = neighbor then some nextInterface
          else if one = node ∧ next = neighbor then some interface
          else snapshot.interfaces.interfaceTo? node neighbor := by
      rw [InterfaceMap.interfaceTo?_insert, InterfaceMap.interfaceTo?_insert]
    by_cases back : next = node ∧ one = neighbor
    · exact .gives _ fun snapshot => (after snapshot).trans (if_pos back)
    · by_cases forth : one = node ∧ next = neighbor
      · exact .gives _ fun snapshot => (after snapshot).trans ((if_neg back).trans (if_pos forth))
      · exact .leaves fun snapshot => (after snapshot).trans ((if_neg back).trans (if_neg forth))

section
variable {α : Type} (answer : Snapshot → α) (records : List UnicastRecord)
  (settles : Settles answer records)
include settles

theorem Settles.congr (one other : Snapshot) (same : answer one = answer other) :
    answer (one.replay records) = answer (other.replay records) := by
  cases settles with
  | leaves left => rw [left, left, same]
  | gives given gave => rw [gave, gave]

theorem Settles.again (snapshot : Snapshot) :
    answer ((snapshot.replay records).replay records) = answer (snapshot.replay records) := by
  cases settles with
  | leaves left => exact left _
  | gives given gave => rw [gave, gave]

end

section
variable (one other : Snapshot) (nodeCount : Nat) (oneSized : one.Sized nodeCount)
  (otherSized : other.Sized nodeCount)
include oneSized otherSized

theorem Alike.of_answers (epoch : one.epoch = other.epoch)
    (towards : ∀ node destination,
      one.nextHops.towards node destination = other.nextHops.towards node destination)
    (interfaceTo : ∀ node neighbor,
      one.interfaces.interfaceTo? node neighbor = other.interfaces.interfaceTo? node neighbor) :
    one.Alike other where
  epoch
  nodeCount := oneSized.nodeCount.trans otherSized.nodeCount.symm
  towards
  interfaceTo
  neighborOn := one.interfaces.neighborOn?_congr other.interfaces oneSized.made otherSized.made
    interfaceTo

theorem Alike.replay (alike : one.Alike other) (records : List UnicastRecord) :
    (one.replay records).Alike (other.replay records) := by
  refine Alike.of_answers _ _ nodeCount (Sized.replay one nodeCount oneSized records)
    (Sized.replay other nodeCount otherSized records) ?_ (fun node destination => ?_)
    fun node neighbor => ?_
  · rw [replay_epoch, replay_epoch, alike.epoch]
  · exact Settles.congr _ records (settles_towards node destination records) one other
      (alike.towards node destination)
  · exact Settles.congr _ records (settles_interfaceTo? node neighbor records) one other
      (alike.interfaceTo node neighbor)

end

/-- Records that were the last to be applied change no answer when they are applied again. -/
theorem alike_replay_replay (snapshot : Snapshot) (nodeCount : Nat)
    (sized : snapshot.Sized nodeCount) (records : List UnicastRecord) :
    ((snapshot.replay records).replay records).Alike (snapshot.replay records) := by
  have once := Sized.replay snapshot nodeCount sized records
  refine Alike.of_answers _ _ nodeCount (Sized.replay _ nodeCount once records) once ?_
    (fun node destination => ?_) fun node neighbor => ?_
  · rw [replay_epoch, replay_epoch]
  · exact Settles.again _ records (settles_towards node destination records) snapshot
  · exact Settles.again _ records (settles_interfaceTo? node neighbor records) snapshot

end Snapshot
end Multicast
