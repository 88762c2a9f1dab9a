import Multicast.Unicast.Directory
import Multicast.Proofs.Unicast.Records
import Mathlib.Data.List.Induction

/-!
Directories of state files, loaded again and again. A load succeeds if its file is good, and then the
directory stands where the records of all good files so far lead. Main statement: what a load yields is
told by the files that were loaded before it, failed loads leave no trace, and a file that is loaded
twice gives the same answers as one that is loaded once.
-/

namespace Multicast
open Std

namespace SnapshotSource
variable {σ : Type} [SnapshotSource σ]

def succeeding (source : σ) : List Nat → List Nat
  | [] => []
  | epoch :: rest =>
    match load source epoch with
    | (.error _, later) => succeeding later rest
    | (.ok _, later) => epoch :: succeeding later rest

theorem afterAll_concat (source : σ) (epochs : List Nat) (epoch : Nat) :
    afterAll source (epochs ++ [epoch]) = (load (afterAll source epochs) epoch).2 :=
  List.foldl_append

theorem succeeding_concat (source : σ) (epochs : List Nat) (epoch : Nat) :
    succeeding source (epochs ++ [epoch]) = succeeding source epochs ++
      match (load (afterAll source epochs) epoch).1 with
      | .error _ => []
      | .ok _ => [epoch] := by
  induction epochs generalizing source with
  | nil =>
    rcases loaded : load source epoch with ⟨error | snapshot, later⟩
    · simp [succeeding, afterAll, loaded]
    · simp [succeeding, afterAll, loaded]
  | cons first rest ih =>
    rcases loaded : load source first with ⟨error | snapshot, later⟩
    · simpa [succeeding, afterAll, loaded] using ih later
    · simpa [succeeding, afterAll, loaded] using ih later

def Sized (nodeCount : Nat) (source : σ) : Prop :=
  ∀ epochs epoch snapshot, (load (afterAll source epochs) epoch).1 = .ok snapshot →
    snapshot.Sized nodeCount

/-- Both loads fail with one error, or what they yield is alike. -/
inductive SameYield : Except SnapshotError Snapshot → Except SnapshotError Snapshot → Prop where
  | failed (error : SnapshotError) : SameYield (.error error) (.error error)
  | loaded (one other : Snapshot) (alike : one.Alike other) : SameYield (.ok one) (.ok other)

end SnapshotSource

theorem SnapshotPlan.sized (nodeCount : Nat) (plan : SnapshotPlan)
    (each : ∀ epoch snapshot, plan.outcome epoch = .ok snapshot → snapshot.Sized nodeCount) :
    SnapshotSource.Sized nodeCount plan := by
  have same (epochs : List Nat) : SnapshotSource.afterAll plan epochs = plan := by
    induction epochs with
    | nil => rfl
    | cons _ _ ih => exact ih
  intro epochs epoch snapshot loaded
  rw [same] at loaded
  exact each epoch snapshot loaded

namespace StateDirectory
open SnapshotSource

def records (directory : StateDirectory) (epoch : Nat) : Except SnapshotError (List UnicastRecord) :=
  match directory.file epoch with
  | .missing => .error (.missing epoch)
  | .unopened reason => .error (.unreadable (filePath directory.path epoch) reason)
  | .unreadable reason => .error (.malformed 1 (.unreadable reason))
  | .bytes content => Snapshot.fileRecords directory.nodeCount content

theorem base_epoch (directory : StateDirectory) (epoch : Nat) :
    (directory.base epoch).epoch = epoch := by
  unfold base
  split
  · rfl
  · rfl

theorem base_withEpoch (directory : StateDirectory) (epoch later : Nat) :
    ({ directory.base epoch with epoch := later } : Snapshot) = directory.base later := by
  unfold base
  split
  · rfl
  · rfl

theorem load_of_records (directory : StateDirectory) (epoch : Nat)
    (fits : (directory.base epoch).nodeCount = directory.nodeCount) :
    SnapshotSource.load directory epoch =
      match directory.records epoch with
      | .error error => (.error error, directory)
      | .ok records => (.ok ((directory.base epoch).replay records),
          { directory with current := some ((directory.base epoch).replay records) }) := by
  change directory.load epoch = _
  unfold StateDirectory.load records
  cases directory.file epoch with
  | missing => rfl
  | unopened => rfl
  | unreadable => rfl
  | bytes content =>
    have applied := Snapshot.applyLines_of_records 1 0 (directory.base epoch) (Text.lines content)
    rw [fits] at applied
    unfold Snapshot.applyFile Snapshot.fileRecords
    dsimp only
    generalize Snapshot.lineRecords directory.nodeCount 1 (Text.lines content) = read at applied
    cases read with
    | error error =>
      dsimp only at applied ⊢
      split
      · rename_i failed
        rw [failed] at applied
        cases applied
        rfl
      · rename_i succeeded
        rw [succeeded] at applied
        cases applied
    | ok records =>
      dsimp only at applied ⊢
      rw [applied]

/-- The directory stands where the records of the given files have led the first one. -/
structure Follows (first directory : StateDirectory) (files : List (List UnicastRecord)) :
    Prop where
  same : directory = { first with current := directory.current }
  base : ∀ epoch, directory.base epoch =
    (Snapshot.empty epoch first.nodeCount).replay files.flatten

section
variable (first directory : StateDirectory) (files : List (List UnicastRecord))
  (follows : Follows first directory files)
include follows

theorem Follows.sized (epoch : Nat) : (directory.base epoch).Sized first.nodeCount := by
  rw [follows.base]
  exact Snapshot.Sized.replay _ _ (Snapshot.sized_empty epoch first.nodeCount) files.flatten

theorem Follows.load (epoch : Nat) :
    SnapshotSource.load directory epoch =
      match first.records epoch with
      | .error error => (.error error, directory)
      | .ok records => (.ok ((directory.base epoch).replay records),
          { directory with current := some ((directory.base epoch).replay records) }) := by
  have nodeCount := congrArg StateDirectory.nodeCount follows.same
  have records : directory.records epoch = first.records epoch := by rw [follows.same]; rfl
  rw [← records]
  have sized := Follows.sized first directory files follows epoch
  exact directory.load_of_records epoch (sized.nodeCount.trans nodeCount.symm)

theorem Follows.step (epoch : Nat) (records : List UnicastRecord)
    (read : first.records epoch = .ok records) :
    SnapshotSource.load directory epoch =
        (.ok ((Snapshot.empty epoch first.nodeCount).replay (files ++ [records]).flatten),
          (SnapshotSource.load directory epoch).2) ∧
      Follows first (SnapshotSource.load directory epoch).2 (files ++ [records]) := by
  have loaded := Follows.load first directory files follows epoch
  have joined (later : Nat) :
      (Snapshot.empty later first.nodeCount).replay (files ++ [records]).flatten =
        ((Snapshot.empty later first.nodeCount).replay files.flatten).replay records := by
    rw [List.flatten_append, List.flatten_singleton, Snapshot.replay_append]
  rw [read] at loaded
  rw [loaded, joined, follows.base]
  refine ⟨rfl, ?_, fun later => ?_⟩
  · rw [follows.same]
  · rw [joined, ← follows.base, ← follows.base, ← directory.base_withEpoch epoch later]
    exact (Snapshot.replay_withEpoch _ later records).symm

theorem Follows.of_load_eq_ok (epoch : Nat) (snapshot : Snapshot) (later : StateDirectory)
    (loaded : SnapshotSource.load directory epoch = (.ok snapshot, later)) :
    ∃ records, first.records epoch = .ok records ∧ snapshot.epoch = epoch ∧
      later.base epoch = snapshot := by
  have loads := Follows.load first directory files follows epoch
  cases found : first.records epoch with
  | error error =>
    rw [found, loaded] at loads
    cases loads
  | ok records =>
    rw [found, loaded] at loads
    cases loads
    refine ⟨records, rfl, ?_, ?_⟩
    · rw [Snapshot.replay_epoch, base_epoch]
    · exact (Snapshot.replay_withEpoch _ epoch records).symm.trans
        (congrArg (Snapshot.replay · records) (directory.base_withEpoch epoch epoch))

end

section
variable (path : String) (nodeCount : Nat) (file : Nat → FileContent)

theorem follows_afterAll (epochs : List Nat) :
    ∃ files, (succeeding (ofFiles path nodeCount file) epochs).mapM
        (ofFiles path nodeCount file).records = .ok files ∧
      Follows (ofFiles path nodeCount file) (afterAll (ofFiles path nodeCount file) epochs)
        files := by
  generalize begins : ofFiles path nodeCount file = first
  induction epochs using List.reverseRecOn with
  | nil =>
    subst begins
    exact ⟨[], rfl, rfl, fun epoch => rfl⟩
  | append_singleton epochs epoch ih =>
    obtain ⟨files, read, follows⟩ := ih
    rw [succeeding_concat, afterAll_concat]
    cases found : first.records epoch with
    | error error =>
      have loaded := Follows.load first _ files follows epoch
      rw [found] at loaded
      exact ⟨files, by simpa [loaded] using read, by simpa [loaded] using follows⟩
    | ok records =>
      obtain ⟨loaded, step⟩ := Follows.step first _ files follows epoch records found
      exact ⟨files ++ [records], by rw [loaded]; simp [read, found]; rfl, step⟩

theorem sized_ofFiles : SnapshotSource.Sized nodeCount (ofFiles path nodeCount file) := by
  intro epochs epoch snapshot loaded
  obtain ⟨files, _, follows⟩ := follows_afterAll path nodeCount file epochs
  rw [Follows.load _ _ files follows epoch] at loaded
  split at loaded
  · cases loaded
  · rename_i records _
    cases loaded
    exact Snapshot.Sized.replay _ _ (Follows.sized _ _ files follows epoch) records

end

/-- The directories differ at most in what they have loaded, and give the same answers from it. -/
structure Alike (one other : StateDirectory) : Prop where
  same : other = { one with current := other.current }
  base : ∀ epoch, (one.base epoch).Alike (other.base epoch)
  sized : ∀ epoch, (one.base epoch).Sized one.nodeCount ∧ (other.base epoch).Sized one.nodeCount

section
variable (one other : StateDirectory) (alike : Alike one other)
include alike

theorem Alike.load (epoch : Nat) :
    SameYield (SnapshotSource.load one epoch).1 (SnapshotSource.load other epoch).1 ∧
      Alike (SnapshotSource.load one epoch).2 (SnapshotSource.load other epoch).2 := by
  obtain ⟨oneSized, otherSized⟩ := alike.sized epoch
  have nodeCount := congrArg StateDirectory.nodeCount alike.same
  have records : other.records epoch = one.records epoch := by rw [alike.same]; rfl
  rw [one.load_of_records epoch oneSized.nodeCount,
    other.load_of_records epoch (otherSized.nodeCount.trans nodeCount.symm), records]
  cases one.records epoch with
  | error error => exact ⟨.failed error, alike⟩
  | ok records =>
    have yields := Snapshot.Alike.replay _ _ one.nodeCount oneSized otherSized
      (alike.base epoch) records
    refine ⟨.loaded _ _ yields, ?_, fun later => ?_, fun later => ?_⟩
    · rw [alike.same]
    · exact { yields with epoch := rfl }
    · have first := Snapshot.Sized.replay _ _ oneSized records
      have second := Snapshot.Sized.replay _ _ otherSized records
      exact ⟨⟨first.nodeCount, first.made⟩, ⟨second.nodeCount, second.made⟩⟩

theorem Alike.afterAll (epochs : List Nat) :
    Alike (SnapshotSource.afterAll one epochs) (SnapshotSource.afterAll other epochs) := by
  induction epochs generalizing one other with
  | nil => exact alike
  | cons epoch rest ih => exact ih _ _ (Alike.load one other alike epoch).2

end

/-- A file that was the last to be loaded changes no answer when it is loaded again. -/
theorem alike_load_again (first directory : StateDirectory) (files : List (List UnicastRecord))
    (follows : Follows first directory files) (epoch : Nat) (records : List UnicastRecord)
    (read : first.records epoch = .ok records) :
    Alike (SnapshotSource.load (SnapshotSource.load directory epoch).2 epoch).2
      (SnapshotSource.load directory epoch).2 := by
  obtain ⟨_, once⟩ := Follows.step first directory files follows epoch records read
  obtain ⟨_, twice⟩ := Follows.step first _ _ once epoch records read
  refine ⟨?_, fun later => ?_, fun later => ?_⟩
  · rw [twice.same, once.same]
  · rw [twice.base, once.base, List.flatten_append, List.flatten_append, List.flatten_singleton,
      Snapshot.replay_append, Snapshot.replay_append]
    exact Snapshot.alike_replay_replay _ first.nodeCount
      (Snapshot.Sized.replay _ _ (Snapshot.sized_empty later first.nodeCount) _) records
  · have nodeCount := congrArg StateDirectory.nodeCount twice.same
    rw [nodeCount]
    exact ⟨Follows.sized first _ _ twice later, Follows.sized first _ _ once later⟩

/-- A load that succeeds yields a snapshot of its epoch, which the records of all files whose load has
succeeded make one after the other from the empty one. Loading the file again changes no answer, now or
later. A load that fails does so for its file, and changes nothing. -/
theorem load_yields_records_of_succeeding (path : String) (nodeCount : Nat)
    (file : Nat → FileContent) (epochs : List Nat) (epoch : Nat) :
    (∀ snapshot later,
      SnapshotSource.load (afterAll (ofFiles path nodeCount file) epochs) epoch =
          (.ok snapshot, later) →
        snapshot.epoch = epoch ∧
        (∃ files, (succeeding (ofFiles path nodeCount file) (epochs ++ [epoch])).mapM
            (ofFiles path nodeCount file).records = .ok files ∧
          snapshot = (Snapshot.empty epoch nodeCount).replay files.flatten) ∧
        (∃ again, (SnapshotSource.load later epoch).1 = .ok again ∧ again.Alike snapshot) ∧
        ∀ more next, SameYield
          (SnapshotSource.load (afterAll (SnapshotSource.load later epoch).2 more) next).1
          (SnapshotSource.load (afterAll later more) next).1) ∧
    ∀ error later,
      SnapshotSource.load (afterAll (ofFiles path nodeCount file) epochs) epoch =
          (.error error, later) →
        (ofFiles path nodeCount file).records epoch = .error error ∧
        later = afterAll (ofFiles path nodeCount file) epochs := by
  obtain ⟨files, read, follows⟩ := follows_afterAll path nodeCount file epochs
  have loads := Follows.load _ _ files follows epoch
  constructor
  · intro snapshot later loaded
    obtain ⟨records, found, epoch_eq, base⟩ :=
      Follows.of_load_eq_ok _ _ files follows epoch snapshot later loaded
    obtain ⟨all, read, after⟩ := follows_afterAll path nodeCount file (epochs ++ [epoch])
    obtain ⟨_, once⟩ := Follows.step _ _ files follows epoch records found
    have again := alike_load_again _ _ files follows epoch records found
    rw [afterAll_concat] at after
    rw [loaded] at once again after
    obtain ⟨yields, _⟩ := Follows.step _ _ _ once epoch records found
    obtain ⟨_, _, _, baseAgain⟩ := Follows.of_load_eq_ok _ _ _ once epoch _ _ yields
    refine ⟨epoch_eq, ⟨all, read, base ▸ after.base epoch⟩, ⟨_, congrArg Prod.fst yields, ?_⟩,
      fun more next => (Alike.load _ _ (Alike.afterAll _ _ again more) next).1⟩
    rw [← baseAgain, ← base]
    exact again.base epoch
  · intro error later loaded
    rw [loads] at loaded
    split at loaded
    · rename_i found
      cases loaded
      exact ⟨found, rfl⟩
    · cases loaded

def updates : StateDirectory :=
  ofFiles "routes" 3 fun epoch =>
    if epoch = 0 then
      .bytes (Text.encodeUtf8 "0,2,1,0,0\n1,2,2,1,0\n2,0,1,0,1\n1,0,0,0,0\n")
    else if epoch = 100 then .bytes (Text.encodeUtf8 "0,2,-1,-1,-1\n1,2,7\n")
    else if epoch = 200 then .bytes (Text.encodeUtf8 "2,1,1,0,1\n")
    else .missing

theorem load_yields_records_of_succeeding_updates :
    updates.records 100 = .error (.malformed 2 (.fieldCount 3)) ∧
    afterAll updates [0, 100] = afterAll updates [0] ∧
    ∃ snapshot later, SnapshotSource.load (afterAll updates [0, 100]) 200 = (.ok snapshot, later) ∧
      snapshot.epoch = 200 ∧ snapshot.nextHops.towards 0 2 = [1] ∧
      (∃ files, [0, 200].mapM updates.records = .ok files ∧
        snapshot = (Snapshot.empty 200 3).replay files.flatten) ∧
      ∃ again, (SnapshotSource.load later 200).1 = .ok again ∧ again.Alike snapshot := by
  have succeeds : succeeding updates ([0, 100] ++ [200]) = [0, 200] := by decide +kernel
  have fails : (SnapshotSource.load (afterAll updates [0]) 100).1.isOk = false := by decide +kernel
  have kept : (SnapshotSource.load (afterAll updates [0, 100]) 200).1.toOption.map
      (fun snapshot => snapshot.nextHops.towards 0 2) = some [1] := by decide +kernel
  obtain ⟨_, unchanged⟩ := load_yields_records_of_succeeding "routes" 3 updates.file [0] 100
  obtain ⟨yields, _⟩ := load_yields_records_of_succeeding "routes" 3 updates.file [0, 100] 200
  refine ⟨by decide +kernel, ?_, ?_⟩
  · rcases loaded : SnapshotSource.load (afterAll updates [0]) 100 with ⟨error | _, later⟩
    · have same : afterAll updates [0, 100] = later := congrArg Prod.snd loaded
      exact same.trans (unchanged error later loaded).2
    · rw [loaded] at fails
      cases fails
  · rcases loaded : SnapshotSource.load (afterAll updates [0, 100]) 200 with ⟨_ | snapshot, later⟩
    · rw [loaded] at kept
      cases kept
    · rw [loaded] at kept
      obtain ⟨epoch, ⟨files, read, replayed⟩, again, _⟩ := yields snapshot later loaded
      exact ⟨snapshot, later, rfl, epoch, Option.some.inj kept, ⟨files, succeeds ▸ read, replayed⟩,
        again⟩

end StateDirectory
end Multicast
