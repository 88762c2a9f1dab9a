import Multicast.Proofs.Sorting
import Multicast.Proofs.Split.Coverage

/-!
Splitting over epochs that change nothing. No request is cut then, and each is split in the last epoch
that it runs in. Main statement: the parts are those of the schedule split at once after putting its
requests in the order of their last epochs, so parts that start together keep the order of their
requests exactly if none of these runs into a later epoch than one that stands after it.
-/

namespace Multicast
open Std

namespace SnapshotSource
variable {σ : Type} [SnapshotSource σ]

/-- Every epoch before the end groups the destinations of each request as the first one does. -/
structure Steady (source : σ) (interval finish : Nat) (requests : List Request) (first : Snapshot) :
    Prop where
  begins : yield source interval 0 = .ok first
  continues (index : Nat) (inside : index ≤ laterEpochs interval finish) :
    ∃ snapshot, yield source interval index = .ok snapshot ∧
      ∀ request ∈ requests, request.sourceGroups snapshot = request.sourceGroups first

theorem Steady.of_subset (source : σ) (interval finish : Nat) (requests fewer : List Request)
    (first : Snapshot) (steady : Steady source interval finish requests first)
    (subset : fewer ⊆ requests) : Steady source interval finish fewer first where
  begins := steady.begins
  continues index inside := by
    obtain ⟨snapshot, yields, agree⟩ := steady.continues index inside
    exact ⟨snapshot, yields, fun request member => agree request (subset member)⟩

end SnapshotSource

namespace Request

/-- The last epoch, of one and the given number of further ones, that a request runs in or begins in. -/
def lastEpoch (interval epochs : Nat) (request : Request) : Nat :=
  min (max request.start (request.finish - 1) / interval) epochs

def Passed (instant : Nat) (request : Request) : Prop :=
  request.start < instant ∧ request.finish ≤ instant

instance (instant : Nat) (request : Request) : Decidable (request.Passed instant) :=
  inferInstanceAs (Decidable (_ ∧ _))

theorem lastEpoch_le_iff (interval epochs index : Nat) (request : Request) (spaced : 0 < interval)
    (before : index < epochs) :
    request.lastEpoch interval epochs ≤ index ↔ request.Passed ((index + 1) * interval) := by
  have positive : 0 < (index + 1) * interval := Nat.mul_pos (Nat.succ_pos index) spaced
  unfold lastEpoch Passed
  rw [min_le_iff, or_iff_left (Nat.not_le.2 before), ← Nat.lt_add_one_iff,
    Nat.div_lt_iff_lt_mul spaced, max_lt_iff]
  omega

def partsAt (snapshot : Snapshot) (request : Request) : List Request :=
  match request.splitAtSource snapshot with
  | .error _ => []
  | .ok parts => parts

def Splits (snapshot : Snapshot) (request : Request) : Prop :=
  ∃ parts, request.splitAtSource snapshot = .ok parts

theorem Splits.eq (snapshot : Snapshot) (request : Request) (splits : request.Splits snapshot) :
    request.splitAtSource snapshot = .ok (request.partsAt snapshot) := by
  obtain ⟨parts, split⟩ := splits
  rw [partsAt, split]

theorem splitAtSource_congr (request : Request) (snapshot current : Snapshot)
    (same : request.sourceGroups snapshot = request.sourceGroups current) :
    request.splitAtSource snapshot = request.splitAtSource current := by
  unfold splitAtSource
  rw [same]

theorem splits_of_slices (interval : Nat) (state : Nat → Snapshot) (remaining index : Nat)
    (request : Request) (first : Snapshot) (parts : List Request)
    (agree : ∀ epoch, index ≤ epoch → epoch ≤ index + remaining →
      request.sourceGroups (state epoch) = request.sourceGroups first)
    (sliced : request.Slices interval state remaining index parts) : request.Splits first := by
  induction sliced with
  | last index request parts split =>
    rw [splitAtSource_congr request _ first (agree index (by omega) (by omega))] at split
    exact ⟨parts, split⟩
  | waiting remaining index request parts early later ih =>
    exact ih fun epoch after before => agree epoch (by omega) (by omega)
  | closed remaining index request parts started ended split =>
    rw [splitAtSource_congr request _ first (agree index (by omega) (by omega))] at split
    exact ⟨parts, split⟩
  | kept remaining index request parts groups started runs found unchanged later ih =>
    exact ih fun epoch after before => agree epoch (by omega) (by omega)
  | cut remaining index request parts rest groups changed started runs found found' differ =>
    rw [agree index (by omega) (by omega)] at found
    rw [agree (index + 1) (by omega) (by omega), found] at found'
    exact absurd (Except.ok.inj found') differ

end Request

def inClosingOrder (interval epochs : Nat) (requests : List Request) : List Request :=
  sortedBy (Request.lastEpoch interval epochs) requests

/-- Requests that start together stand in the order of their last epochs. -/
def TiesCloseInOrder (interval epochs : Nat) (requests : List Request) : Prop :=
  requests.Pairwise fun one other =>
    one.start = other.start → one.lastEpoch interval epochs ≤ other.lastEpoch interval epochs

theorem splitSchedule_eq_ok (requests parts : List Request) (snapshot : Snapshot) :
    splitSchedule requests snapshot = .ok parts ↔
      (∀ request ∈ requests, request.Splits snapshot) ∧
        parts = renumber (requests.flatMap (Request.partsAt snapshot)) := by
  unfold splitSchedule
  rw [Traversal.bind_eq_ok]
  constructor
  · rintro ⟨each, split, same⟩
    cases same
    have splits := (Traversal.exists_mapM_iff _ _).1 ⟨each, split⟩
    rw [Traversal.mapM_of_forall _ (Request.partsAt snapshot) requests
      fun request member => Request.Splits.eq _ _ (splits request member)] at split
    cases split
    exact ⟨splits, rfl⟩
  · rintro ⟨splits, rfl⟩
    refine ⟨requests.map (Request.partsAt snapshot), ?_, rfl⟩
    exact Traversal.mapM_of_forall _ _ _ fun request member =>
      Request.Splits.eq _ _ (splits request member)

namespace EpochCut
open Request

theorem ofRequest_of_unchanged (previous current first : Snapshot) (epoch : Nat) (request : Request)
    (before : request.sourceGroups previous = request.sourceGroups first)
    (after : request.sourceGroups current = request.sourceGroups first)
    (splits : request.Splits first) :
    ofRequest previous current epoch request = .ok (if request.Passed epoch
      then ⟨request.partsAt first, []⟩ else ⟨[], [request]⟩) := by
  have split := Splits.eq _ _ splits
  obtain ⟨groups, found, _⟩ := (splitAtSource_eq_ok ..).1 split
  rw [← splitAtSource_congr request _ _ before] at split
  unfold ofRequest
  by_cases early : epoch ≤ request.start
  · have waits : ¬request.Passed epoch := fun passed => Nat.not_lt.2 early passed.1
    rw [if_pos early, if_neg waits]
  · by_cases ended : request.finish ≤ epoch
    · have passed : request.Passed epoch := ⟨Nat.lt_of_not_ge early, ended⟩
      rw [if_neg early, if_pos ended, if_pos passed, split]
      rfl
    · have runs : ¬request.Passed epoch := fun passed => ended passed.2
      rw [if_neg early, if_neg ended, if_neg runs, before, after, found]
      simp [bind, Except.bind, pure, Except.pure]

theorem ofRequests_of_unchanged (previous current first : Snapshot) (epoch : Nat)
    (requests : List Request)
    (before : ∀ request ∈ requests, request.sourceGroups previous = request.sourceGroups first)
    (after : ∀ request ∈ requests, request.sourceGroups current = request.sourceGroups first)
    (splits : ∀ request ∈ requests, request.Splits first) :
    ofRequests previous current epoch requests = .ok
      ⟨(requests.filter (Passed epoch)).flatMap (partsAt first),
        requests.filter fun request => ¬request.Passed epoch⟩ := by
  unfold ofRequests
  rw [Traversal.mapM_of_forall _ _ requests fun request member =>
    ofRequest_of_unchanged previous current first epoch request (before request member)
      (after request member) (splits request member)]
  simp only [bind, Except.bind, pure, Except.pure, Except.ok.injEq, EpochCut.mk.injEq]
  clear before after splits
  induction requests with
  | nil => exact ⟨rfl, rfl⟩
  | cons request rest ih =>
    obtain ⟨closed, stillOpen⟩ := ih
    rw [List.map_cons, List.flatMap_cons, List.flatMap_cons, closed, stillOpen]
    by_cases passed : request.Passed epoch
    · simp [passed]
    · simp [passed]

end EpochCut

section
variable {σ : Type} [SnapshotSource σ] (source : σ) (interval finish : Nat) (requests : List Request)
  (first : Snapshot)

theorem loadEpoch_of_yield (index : Nat) (snapshot : Snapshot)
    (yields : SnapshotSource.yield source interval index = .ok snapshot) :
    loadEpoch (SnapshotSource.after source interval index) (index * interval) =
      .ok (snapshot, SnapshotSource.after source interval (index + 1)) :=
  (loadEpoch_eq_ok ..).2 (Prod.ext yields rfl)

theorem closeAll_of_unchanged (previous : Snapshot)
    (before : ∀ request ∈ requests, request.sourceGroups previous = request.sourceGroups first)
    (splits : ∀ request ∈ requests, request.Splits first) :
    closeAll previous requests = .ok (requests.flatMap (Request.partsAt first)) := by
  unfold closeAll
  rw [Traversal.mapM_of_forall _ (Request.partsAt first) requests]
  · rfl
  · intro request member
    rw [Request.splitAtSource_congr request previous first (before request member)]
    exact Request.Splits.eq _ _ (splits request member)

/-- Requests that run in no epoch before the given one are closed in the order of their last epochs. -/
theorem partsOver_of_steady (remaining index epochs : Nat) (requests : List Request)
    (counted : epochs = laterEpochs interval finish) (total : index + remaining = epochs)
    (steady : SnapshotSource.Steady source interval finish requests first)
    (waiting : ∀ request ∈ requests, index ≤ request.lastEpoch interval epochs)
    (splits : ∀ request ∈ requests, request.Splits first) (previous : Snapshot)
    (before : ∀ request ∈ requests, request.sourceGroups previous = request.sourceGroups first) :
    partsOver interval remaining ((index + 1) * interval)
      (SnapshotSource.after source interval (index + 1)) previous requests =
      .ok ((inClosingOrder interval epochs requests).flatMap (Request.partsAt first)) := by
  induction remaining generalizing index requests previous with
  | zero =>
    have together : Ascends (Request.lastEpoch interval epochs) requests := by
      apply List.pairwise_of_forall_mem_list
      intro one _ other member
      have last : one.lastEpoch interval epochs ≤ epochs := Nat.min_le_right _ _
      exact Nat.le_trans last (total ▸ waiting other member)
    rw [inClosingOrder, sortedBy_of_ascends _ _ together]
    exact closeAll_of_unchanged requests first previous before splits
  | succ remaining ih =>
    obtain ⟨current, yields, after⟩ := steady.continues (index + 1) (by omega)
    have spaced : 0 < interval := by
      refine Nat.pos_of_ne_zero fun absent => ?_
      simp [laterEpochs, absent] at counted
      omega
    -- Of the requests still open, those that have passed are those whose last epoch this one is.
    have passed (request : Request) (member : request ∈ requests) :
        request.Passed ((index + 1) * interval) ↔ request.lastEpoch interval epochs = index := by
      rw [← request.lastEpoch_le_iff interval epochs index spaced (by omega)]
      have := waiting request member
      omega
    have closed : requests.filter (Request.Passed ((index + 1) * interval)) =
        requests.filter (Request.lastEpoch interval epochs · = index) :=
      List.filter_congr fun request member => decide_eq_decide.2 (passed request member)
    have stillOpen : requests.filter (fun request => ¬request.Passed ((index + 1) * interval)) =
        requests.filter (Request.lastEpoch interval epochs · ≠ index) :=
      List.filter_congr fun request member => decide_eq_decide.2 (not_congr (passed request member))
    have subset : requests.filter (Request.lastEpoch interval epochs · ≠ index) ⊆ requests :=
      List.filter_sublist.subset
    have later := ih (index + 1) _ (by omega) (steady.of_subset _ _ _ _ _ _ subset)
      (fun request member => by
        have other := of_decide_eq_true (List.mem_filter.1 member).2
        have := waiting request (subset member)
        omega)
      (fun request member => splits request (subset member)) current
      (fun request member => after request (subset member))
    have epoch : (index + 1) * interval + interval = (index + 1 + 1) * interval := by ring
    unfold partsOver
    rw [loadEpoch_of_yield source interval (index + 1) current yields]
    simp only [EpochCut.ofRequests_of_unchanged previous current first _ requests before after splits,
      closed, stillOpen, epoch, later, inClosingOrder]
    rw [← List.flatMap_append, ← sortedBy_eq_append _ requests index waiting]

theorem splitScheduleOver_eq_of_steady
    (steady : SnapshotSource.Steady source interval finish requests first)
    (splits : ∀ request ∈ requests, request.Splits first) :
    splitScheduleOver requests source interval finish =
      .ok (renumber ((inClosingOrder interval (laterEpochs interval finish) requests).flatMap
        (Request.partsAt first))) := by
  have load := loadEpoch_of_yield source interval 0 first steady.begins
  have parts := partsOver_of_steady source interval finish first (laterEpochs interval finish) 0 _
    requests rfl (Nat.zero_add _) steady (fun _ _ => Nat.zero_le _) splits first (fun _ _ => rfl)
  rw [Nat.zero_mul] at load
  rw [Nat.zero_add, Nat.one_mul] at parts
  unfold splitScheduleOver
  rw [show loadEpoch source 0 = _ from load]
  simp [bind, Except.bind, pure, Except.pure, parts]

theorem splits_of_splitScheduleOver (parts : List Request)
    (steady : SnapshotSource.Steady source interval finish requests first)
    (split : splitScheduleOver requests source interval finish = .ok parts) (request : Request)
    (member : request ∈ requests) : request.Splits first := by
  obtain ⟨own, sliced, _⟩ := slices_mem_splitScheduleOver _ _ _ _ _ split request member
  refine Request.splits_of_slices _ _ _ _ _ _ own (fun epoch _ before => ?_) sliced
  obtain ⟨snapshot, yields, agree⟩ := steady.continues epoch (by omega)
  rw [SnapshotSource.state, yields]
  exact agree request member

end

section
variable (first : Snapshot) (requests : List Request)

theorem filter_flatMap_partsAt (splits : ∀ request ∈ requests, request.Splits first) (start : Nat) :
    (requests.flatMap (Request.partsAt first)).filter (Request.start · = start) =
      (requests.filter (Request.start · = start)).flatMap (Request.partsAt first) := by
  rw [List.filter_flatMap]
  induction requests with
  | nil => rfl
  | cons request rest ih =>
    obtain ⟨split, splits⟩ := List.forall_mem_cons.1 splits
    have starts (part : Request) (member : part ∈ request.partsAt first) :
        part.start = request.start :=
      (Request.partOf_of_split request first _ (Request.Splits.eq _ _ split) part member).2.1
    rw [List.flatMap_cons, ih splits]
    by_cases here : request.start = start
    · rw [List.filter_cons_of_pos (by simpa using here), List.flatMap_cons, List.filter_eq_self.2]
      intro part member
      simpa [starts part member] using here
    · rw [List.filter_cons_of_neg (by simpa using here), List.filter_eq_nil_iff.2, List.nil_append]
      intro part member
      simpa [starts part member] using here

theorem ties_iff (interval epochs : Nat) :
    TiesCloseInOrder interval epochs requests ↔ ∀ start,
      (inClosingOrder interval epochs requests).filter (Request.start · = start) =
        requests.filter (Request.start · = start) := by
  unfold TiesCloseInOrder
  rw [← ascends_filter_iff]
  refine forall_congr' fun start => ?_
  unfold inClosingOrder
  rw [filter_sortedBy]
  constructor
  · exact sortedBy_of_ascends _ _
  · intro sorted
    rw [← sorted]
    exact ascends_sortedBy _ _

theorem renumber_of_ties (interval epochs : Nat) (splits : ∀ request ∈ requests, request.Splits first)
    (ties : TiesCloseInOrder interval epochs requests) :
    renumber ((inClosingOrder interval epochs requests).flatMap (Request.partsAt first)) =
      renumber (requests.flatMap (Request.partsAt first)) := by
  apply renumber_congr
  rw [sortedBy_eq_iff]
  intro start
  rw [filter_flatMap_partsAt first requests splits, filter_flatMap_partsAt,
    (ties_iff requests interval epochs).1 ties start]
  exact fun request member => splits request ((sortedBy_perm _ _).mem_iff.1 member)

/-- Parts tell their requests apart, so an order of parts gives an order of requests. -/
theorem ties_of_renumber (interval epochs : Nat) (splits : ∀ request ∈ requests, request.Splits first)
    (distinct : requests.Pairwise fun one other => one.id ≠ other.id)
    (numbered : ∀ request ∈ requests, request.id < UInt64.size)
    (inhabited : ∀ request ∈ requests, ∃ destination, destination ∈ request.destinations)
    (same : renumber ((inClosingOrder interval epochs requests).flatMap (Request.partsAt first)) =
      renumber (requests.flatMap (Request.partsAt first))) :
    TiesCloseInOrder interval epochs requests := by
  have known (request : Request) (member : request ∈ inClosingOrder interval epochs requests) :
      request ∈ requests := (sortedBy_perm _ _).mem_iff.1 member
  have origin (request : Request) (member : request ∈ requests) (part : Request)
      (inside : part ∈ (request.partsAt first).map Request.unnumbered) :
      part.originId? = some request.id := by
    obtain ⟨cut, listed, rfl⟩ := List.mem_map.1 inside
    have kept := (Request.partOf_of_split request first _ (Request.Splits.eq _ _
      (splits request member)) cut listed).1
    exact Request.PartOf.originId? _ request { kept with } (numbered request member)
  have nonempty (request : Request) (member : request ∈ requests) :
      (request.partsAt first).map Request.unnumbered ≠ [] := by
    obtain ⟨destination, listed⟩ := inhabited request member
    obtain ⟨part, inside, _⟩ := Request.exists_part request first _ (Request.Splits.eq _ _
      (splits request member)) destination listed
    exact List.ne_nil_of_mem (List.mem_map_of_mem inside)
  rw [ties_iff]
  intro start
  have contents := congrArg (List.filter (Request.start · = start))
    ((map_unnumbered_renumber _).symm.trans
      ((congrArg (List.map Request.unnumbered) same).trans (map_unnumbered_renumber _)))
  have starts : (fun request : Request => decide (request.start = start)) ∘ Request.unnumbered =
      fun request => decide (request.start = start) := rfl
  rw [List.filter_map, List.filter_map, starts, filter_key_sortedBy, filter_key_sortedBy,
    filter_flatMap_partsAt first requests splits,
    filter_flatMap_partsAt first _ fun request member => splits request (known request member),
    List.map_flatMap, List.map_flatMap] at contents
  refine Traversal.eq_of_flatMap_eq _ _ _ ?_ ?_ ?_ contents
  · exact fun request member => nonempty request (known request (List.mem_filter.1 member).1)
  · exact fun request member => nonempty request (List.mem_filter.1 member).1
  · intro one member other member' part inside inside'
    have here := known one (List.mem_filter.1 member).1
    have here' := (List.mem_filter.1 member').1
    have id := (origin one here part inside).symm.trans (origin other here' part inside')
    exact Request.eq_of_id requests distinct one other here here' (Option.some.inj id)

end

section
variable {σ : Type} [SnapshotSource σ] (source : σ) (interval finish : Nat) (requests : List Request)
  (first : Snapshot)

/-- Where no epoch changes a grouping, a schedule is split as the first epoch splits its requests in
the order of their last epochs. This agrees with splitting the schedule at once but for the order of
parts that start together, and altogether exactly if the requests that start together stand in the
order of their last epochs. -/
theorem splitScheduleOver_of_steady
    (steady : SnapshotSource.Steady source interval finish requests first) :
    (∀ parts, splitScheduleOver requests source interval finish = .ok parts ↔
      splitSchedule (inClosingOrder interval (laterEpochs interval finish) requests) first =
        .ok parts) ∧
    ((∃ parts, splitScheduleOver requests source interval finish = .ok parts) ↔
      ∃ plain, splitSchedule requests first = .ok plain) ∧
    ∀ parts plain, splitScheduleOver requests source interval finish = .ok parts →
      splitSchedule requests first = .ok plain →
        parts.map Request.start = plain.map Request.start ∧
        (parts.map Request.unnumbered).Perm (plain.map Request.unnumbered) ∧
        (TiesCloseInOrder interval (laterEpochs interval finish) requests → parts = plain) ∧
        (requests.Pairwise (fun one other => one.id ≠ other.id) →
          (∀ request ∈ requests, request.id < UInt64.size) →
          (∀ request ∈ requests, ∃ destination, destination ∈ request.destinations) →
          parts = plain → TiesCloseInOrder interval (laterEpochs interval finish) requests) := by
  have perm := sortedBy_perm (Request.lastEpoch interval (laterEpochs interval finish)) requests
  have whole := splitScheduleOver_eq_of_steady source interval finish requests first steady
  refine ⟨fun parts => ?_, ?_, fun parts plain walked split => ?_⟩
  · rw [splitSchedule_eq_ok]
    constructor
    · intro walked
      have splits := splits_of_splitScheduleOver _ _ _ _ first parts steady walked
      rw [whole splits] at walked
      exact ⟨fun request member => splits request (perm.mem_iff.1 member), (Except.ok.inj walked).symm⟩
    · rintro ⟨splits, rfl⟩
      exact whole fun request member => splits request (perm.mem_iff.2 member)
  · constructor
    · rintro ⟨parts, walked⟩
      have splits := splits_of_splitScheduleOver _ _ _ _ first parts steady walked
      exact ⟨_, (splitSchedule_eq_ok ..).2 ⟨splits, rfl⟩⟩
    · rintro ⟨plain, split⟩
      exact ⟨_, whole ((splitSchedule_eq_ok ..).1 split).1⟩
  · obtain ⟨splits, rfl⟩ := (splitSchedule_eq_ok ..).1 split
    rw [whole splits] at walked
    cases walked
    have slices := perm.flatMap_right (Request.partsAt first)
    refine ⟨?_, ?_, renumber_of_ties first requests _ _ splits, ?_⟩
    · rw [map_start_renumber, map_start_renumber]
      exact map_key_sortedBy_of_perm _ _ _ slices
    · rw [map_unnumbered_renumber, map_unnumbered_renumber]
      exact (((sortedBy_perm _ _).trans slices).trans (sortedBy_perm _ _).symm).map _
    · intro distinct numbered inhabited
      exact ties_of_renumber first requests _ _ splits distinct numbered inhabited

end

theorem SnapshotSeries.latest?_fixed (snapshot : Snapshot) (epoch : Nat) :
    (fixed snapshot).latest? epoch = some { snapshot with epoch := 0 } := by
  have only (start : Nat) (member : start ∈ (fixed snapshot).snapshots) : 0 = start := by
    simpa [fixed, insert, empty] using member
  have latest : ((fixed snapshot).snapshots.filter fun start _ => start ≤ epoch).maxKey? =
      some 0 := by
    rw [ExtTreeMap.maxKey?_eq_some_iff_mem_and_forall]
    refine ⟨by simp [ExtTreeMap.mem_filter, fixed, insert], fun start member => ?_⟩
    rw [← only start (ExtTreeMap.mem_of_mem_filter member)]
    rfl
  unfold latest?
  rw [latest]
  simp [fixed, insert]

theorem SnapshotSource.steady_fixed (snapshot : Snapshot) (interval finish : Nat)
    (requests : List Request) :
    Steady (SnapshotSeries.fixed snapshot) interval finish requests { snapshot with epoch := 0 } := by
  have load (epoch : Nat) : SnapshotSource.load (SnapshotSeries.fixed snapshot) epoch =
      (.ok { snapshot with epoch }, SnapshotSeries.fixed snapshot) := by
    simp only [SnapshotSource.load, SnapshotSeries.latest?_fixed]
  have after (count : Nat) : SnapshotSource.after (SnapshotSeries.fixed snapshot) interval count =
      SnapshotSeries.fixed snapshot := by
    induction count with
    | zero => rfl
    | succ count ih => rw [SnapshotSource.after, ih, load]
  have yields (index : Nat) : SnapshotSource.yield (SnapshotSeries.fixed snapshot) interval index =
      .ok { snapshot with epoch := index * interval } := by
    rw [SnapshotSource.yield, after, load]
  refine ⟨?_, fun index _ => ⟨_, yields index, fun request _ => rfl⟩⟩
  rw [yields, Nat.zero_mul]

def outlastingSchedule : List Request :=
  [⟨0, 0, (∅ : NodeSet).insertMany [1, 3], 1.0, 0, 250, "", ""⟩,
    ⟨1, 0, (∅ : NodeSet).insertMany [3], 1.0, 0, 50, "", ""⟩]

theorem outlastingSchedule_inhabited :
    ∀ request ∈ outlastingSchedule, ∃ destination, destination ∈ request.destinations := by
  intro request member
  refine ⟨3, ?_⟩
  simp only [outlastingSchedule, List.mem_cons, List.not_mem_nil, or_false] at member
  rcases member with rfl | rfl
  · simp
  · simp

theorem not_tiesCloseInOrder_outlastingSchedule :
    ¬TiesCloseInOrder 100 (laterEpochs 100 300) outlastingSchedule := by
  unfold TiesCloseInOrder
  decide

theorem splits_outlastingSchedule :
    ∃ plain, splitSchedule outlastingSchedule (.diamond 0 1) = .ok plain := by
  have splits : (splitSchedule outlastingSchedule (.diamond 0 1)).isOk = true := by decide +kernel
  cases split : splitSchedule outlastingSchedule (.diamond 0 1) with
  | error error =>
    rw [split] at splits
    cases splits
  | ok plain => exact ⟨plain, rfl⟩

theorem splitScheduleOver_of_steady_outlasting :
    ∃ parts plain, splitScheduleOver outlastingSchedule (SnapshotSeries.fixed (.diamond 0 1)) 100 300 =
        .ok parts ∧
      splitSchedule outlastingSchedule (.diamond 0 1) = .ok plain ∧
      splitSchedule outlastingSchedule.reverse (.diamond 0 1) = .ok parts ∧
      (parts.map Request.unnumbered).Perm (plain.map Request.unnumbered) ∧ parts ≠ plain := by
  obtain ⟨closing, succeeds, agree⟩ := splitScheduleOver_of_steady
    (SnapshotSeries.fixed (.diamond 0 1)) 100 300 outlastingSchedule (.diamond 0 1)
    (SnapshotSource.steady_fixed (.diamond 0 1) 100 300 outlastingSchedule)
  obtain ⟨plain, split⟩ := splits_outlastingSchedule
  obtain ⟨parts, walked⟩ := succeeds.2 ⟨plain, split⟩
  obtain ⟨_, contents, _, ties⟩ := agree parts plain walked split
  have reversed : inClosingOrder 100 (laterEpochs 100 300) outlastingSchedule =
      outlastingSchedule.reverse := by
    unfold inClosingOrder
    rw [sortedBy_eq_append _ _ 0 (fun _ _ => Nat.zero_le _), sortedBy_of_ascends _ _ (by
      unfold Ascends
      decide)]
    rfl
  refine ⟨parts, plain, walked, split, ?_, contents, fun same => ?_⟩
  · rw [← reversed]
    exact (closing parts).1 walked
  · exact not_tiesCloseInOrder_outlastingSchedule
      (ties (by decide) (by decide) outlastingSchedule_inhabited same)

/-- The network never changes, and yet the epochs make a difference. -/
theorem not_splitScheduleOver_eq_splitSchedule :
    SnapshotSource.Steady (SnapshotSeries.fixed (.diamond 0 1)) 100 300 outlastingSchedule
      (.diamond 0 1) ∧
    ∃ parts plain, splitScheduleOver outlastingSchedule (SnapshotSeries.fixed (.diamond 0 1)) 100 300 =
        .ok parts ∧
      splitSchedule outlastingSchedule (.diamond 0 1) = .ok plain ∧ parts ≠ plain := by
  have steady := SnapshotSource.steady_fixed (.diamond 0 1) 100 300 outlastingSchedule
  obtain ⟨plain, split⟩ := splits_outlastingSchedule
  obtain ⟨splits, rfl⟩ := (splitSchedule_eq_ok ..).1 split
  have walked := splitScheduleOver_eq_of_steady _ _ _ _ _ steady splits
  refine ⟨steady, _, _, walked, split, fun same => ?_⟩
  exact not_tiesCloseInOrder_outlastingSchedule (ties_of_renumber _ _ _ _ splits (by decide)
    (by decide) outlastingSchedule_inhabited same)

end Multicast
