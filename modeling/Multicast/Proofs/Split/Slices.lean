import Multicast.Split.OverEpochs
import Multicast.Proofs.Request
import Multicast.Proofs.Split.Groups
import Multicast.Proofs.Unicast.Sequence
import Mathlib.Tactic.Ring

/-!
Slices of a request. Splitting treats the open requests of an epoch together; seen from one request,
it waits for its start, is cut where its groups change, and ends. Main statement: the parts of a
schedule are the parts that its requests are sliced into, one request after another.
-/

namespace Multicast

namespace SnapshotSource
variable {σ : Type} [SnapshotSource σ]

def state (source : σ) (interval index : Nat) : Snapshot :=
  match yield source interval index with
  | .error _ => default
  | .ok snapshot => snapshot

end SnapshotSource

namespace Request

/-- How the parts of one request come about, from the epoch with the given index over the given
number of further epochs. -/
inductive Slices (interval : Nat) (state : Nat → Snapshot) :
    (remaining index : Nat) → Request → List Request → Prop where
  | last (index : Nat) (request : Request) (parts : List Request)
    (split : request.splitAtSource (state index) = .ok parts) :
    Slices interval state 0 index request parts
  | waiting (remaining index : Nat) (request : Request) (parts : List Request)
    (early : (index + 1) * interval ≤ request.start)
    (later : Slices interval state remaining (index + 1) request parts) :
    Slices interval state (remaining + 1) index request parts
  | closed (remaining index : Nat) (request : Request) (parts : List Request)
    (started : request.start < (index + 1) * interval)
    (ended : request.finish ≤ (index + 1) * interval)
    (split : request.splitAtSource (state index) = .ok parts) :
    Slices interval state (remaining + 1) index request parts
  | kept (remaining index : Nat) (request : Request) (parts : List Request) (groups : Groups)
    (started : request.start < (index + 1) * interval)
    (runs : (index + 1) * interval < request.finish)
    (found : request.sourceGroups (state index) = .ok groups)
    (unchanged : request.sourceGroups (state (index + 1)) = .ok groups)
    (later : Slices interval state remaining (index + 1) request parts) :
    Slices interval state (remaining + 1) index request parts
  | cut (remaining index : Nat) (request : Request) (parts rest : List Request)
    (groups changed : Groups)
    (started : request.start < (index + 1) * interval)
    (runs : (index + 1) * interval < request.finish)
    (found : request.sourceGroups (state index) = .ok groups)
    (found' : request.sourceGroups (state (index + 1)) = .ok changed)
    (differ : groups ≠ changed)
    (split : (request.before ((index + 1) * interval)).splitAtSource (state index) = .ok parts)
    (later : Slices interval state remaining (index + 1)
      (request.since ((index + 1) * interval)) rest) :
    Slices interval state (remaining + 1) index request (parts ++ rest)

end Request

namespace EpochCut

theorem slices_of_cut (interval : Nat) (state : Nat → Snapshot) (remaining index : Nat)
    (request : Request) (cut : EpochCut) (each : List (List Request))
    (found : ofRequest (state index) (state (index + 1)) ((index + 1) * interval) request = .ok cut)
    (later : List.Forall₂ (Request.Slices interval state remaining (index + 1)) cut.stillOpen each) :
    request.Slices interval state (remaining + 1) index (cut.closed ++ each.flatten) := by
  unfold ofRequest at found
  split at found
  case isTrue early =>
    cases found
    obtain ⟨parts, rest, sliced, none, rfl⟩ := List.forall₂_cons_left_iff.1 later
    cases List.forall₂_nil_left_iff.1 none
    simpa using .waiting remaining index request parts early sliced
  case isFalse started =>
    split at found
    case isTrue ended =>
      cases split : request.splitAtSource (state index) with
      | error error => simp [split, Except.map] at found
      | ok parts =>
        simp only [split, Except.map, Except.ok.injEq] at found
        subst found
        cases List.forall₂_nil_left_iff.1 later
        simpa using .closed remaining index request parts (Nat.lt_of_not_ge started) ended split
    case isFalse runs =>
      obtain ⟨groups, grouped, found⟩ := (Traversal.bind_eq_ok ..).1 found
      obtain ⟨changed, regrouped, found⟩ := (Traversal.bind_eq_ok ..).1 found
      split at found
      case isTrue same =>
        cases found
        subst same
        obtain ⟨parts, rest, sliced, none, rfl⟩ := List.forall₂_cons_left_iff.1 later
        cases List.forall₂_nil_left_iff.1 none
        simpa using .kept remaining index request parts groups (Nat.lt_of_not_ge started)
          (Nat.lt_of_not_ge runs) grouped regrouped sliced
      case isFalse differ =>
        obtain ⟨parts, split, found⟩ := (Traversal.bind_eq_ok ..).1 found
        cases found
        obtain ⟨rest, others, sliced, none, rfl⟩ := List.forall₂_cons_left_iff.1 later
        cases List.forall₂_nil_left_iff.1 none
        simpa using .cut remaining index request parts rest groups changed
          (Nat.lt_of_not_ge started) (Nat.lt_of_not_ge runs) grouped regrouped differ split sliced

theorem slices_of_cuts (interval : Nat) (state : Nat → Snapshot) (remaining index : Nat)
    (requests : List Request) (cuts : List EpochCut) (each : List (List Request))
    (found : List.Forall₂ (fun request cut =>
      ofRequest (state index) (state (index + 1)) ((index + 1) * interval) request = .ok cut)
      requests cuts)
    (later : List.Forall₂ (Request.Slices interval state remaining (index + 1))
      (cuts.flatMap stillOpen) each) :
    ∃ slices, List.Forall₂ (Request.Slices interval state (remaining + 1) index) requests slices ∧
      (cuts.flatMap closed ++ each.flatten).Perm slices.flatten := by
  induction found generalizing each with
  | nil =>
    cases List.forall₂_nil_left_iff.1 later
    exact ⟨[], .nil, .refl _⟩
  | @cons request cut requests cuts found _ ih =>
    rw [List.flatMap_cons] at later
    have own := List.forall₂_take cut.stillOpen.length later
    have others := List.forall₂_drop cut.stillOpen.length later
    rw [List.take_left] at own
    rw [List.drop_left] at others
    obtain ⟨slices, sliced, perm⟩ := ih _ others
    refine ⟨_, .cons (slices_of_cut _ _ _ _ _ _ _ found own) sliced, ?_⟩
    have parted := List.take_append_drop cut.stillOpen.length each
    generalize each.take cut.stillOpen.length = first at parted
    generalize each.drop cut.stillOpen.length = rest at parted perm
    subst parted
    rw [List.flatMap_cons, List.flatten_append, List.flatten_cons, List.append_assoc,
      List.append_assoc]
    refine List.Perm.append_left _ (.trans ?_ (perm.append_left _))
    rw [← List.append_assoc, ← List.append_assoc]
    exact List.perm_append_comm.append_right _

end EpochCut

section
variable {σ : Type} [SnapshotSource σ]

theorem loadEpoch_eq_ok (source later : σ) (epoch : Nat) (snapshot : Snapshot) :
    loadEpoch source epoch = .ok (snapshot, later) ↔
      SnapshotSource.load source epoch = (.ok snapshot, later) := by
  unfold loadEpoch
  rcases SnapshotSource.load source epoch with ⟨error | found, after⟩
  · simp
  · simp

theorem loadEpoch_after (source later : σ) (interval index : Nat) (snapshot : Snapshot)
    (found : loadEpoch (SnapshotSource.after source interval index) (index * interval) =
      .ok (snapshot, later)) :
    SnapshotSource.yield source interval index = .ok snapshot ∧
      SnapshotSource.state source interval index = snapshot ∧
      later = SnapshotSource.after source interval (index + 1) := by
  have load := (loadEpoch_eq_ok ..).1 found
  have yields : SnapshotSource.yield source interval index = .ok snapshot := by
    rw [SnapshotSource.yield, load]
  refine ⟨yields, ?_, ?_⟩
  · rw [SnapshotSource.state, yields]
  · rw [SnapshotSource.after, load]

theorem closeAll_eq_ok (previous : Snapshot) (requests parts : List Request) :
    closeAll previous requests = .ok parts ↔ ∃ each,
      List.Forall₂ (fun request slices => request.splitAtSource previous = .ok slices) requests each ∧
        parts = each.flatten := by
  unfold closeAll
  simp only [← Traversal.mapM_eq_ok]
  cases requests.mapM (·.splitAtSource previous) with
  | error error => simp
  | ok each => simp [eq_comm]

theorem slices_of_partsOver (source : σ) (interval remaining index : Nat)
    (requests parts : List Request)
    (split : partsOver interval remaining ((index + 1) * interval)
      (SnapshotSource.after source interval (index + 1)) (SnapshotSource.state source interval index)
      requests = .ok parts) :
    (∀ later, index < later → later ≤ index + remaining →
      SnapshotSource.yield source interval later =
        .ok (SnapshotSource.state source interval later)) ∧
    ∃ slices, List.Forall₂
        (Request.Slices interval (SnapshotSource.state source interval) remaining index)
        requests slices ∧
      parts.Perm slices.flatten := by
  induction remaining generalizing index requests parts with
  | zero =>
    obtain ⟨each, sliced, rfl⟩ := (closeAll_eq_ok ..).1 split
    refine ⟨fun later _ _ => by omega, each, ?_, .refl _⟩
    exact sliced.imp fun request slices split => .last index request slices split
  | succ remaining ih =>
    unfold partsOver at split
    split at split
    · cases split
    · rename_i current later load
      obtain ⟨yields, rfl, rfl⟩ := loadEpoch_after _ _ _ _ _ load
      split at split
      · cases split
      · rename_i cut cuts
        split at split
        · cases split
        · rename_i rest tail
          cases split
          obtain ⟨each, mapped, same⟩ := (Traversal.bind_eq_ok ..).1 cuts
          cases same
          have epoch : (index + 1) * interval + interval = (index + 1 + 1) * interval := by ring
          rw [epoch] at tail
          obtain ⟨known, slices, sliced, perm⟩ := ih (index + 1) _ rest tail
          obtain ⟨slices', sliced', perm'⟩ := EpochCut.slices_of_cuts _ _ _ _ _ _ _
            ((Traversal.mapM_eq_ok ..).1 mapped) sliced
          refine ⟨fun later after before => ?_, slices', sliced', ?_⟩
          · rcases Nat.eq_or_lt_of_le after with rfl | after
            · exact yields
            · exact known later after (by omega)
          · exact (perm.append_left _).trans perm'

theorem le_laterEpochs_iff (interval finish index : Nat) (spaced : interval ≠ 0) :
    index ≤ laterEpochs interval finish ↔ index = 0 ∨ index * interval < finish := by
  unfold laterEpochs
  rw [if_neg spaced, Nat.le_div_iff_mul_le (Nat.pos_of_ne_zero spaced)]
  rcases Nat.eq_zero_or_pos index with rfl | later
  · simp
  · have positive := Nat.mul_pos later (Nat.pos_of_ne_zero spaced)
    omega

theorem slices_of_splitScheduleOver (requests parts : List Request) (source : σ)
    (interval finish : Nat) (split : splitScheduleOver requests source interval finish = .ok parts) :
    (∀ index ≤ laterEpochs interval finish, SnapshotSource.yield source interval index =
      .ok (SnapshotSource.state source interval index)) ∧
    ∃ slices unnumbered, List.Forall₂ (Request.Slices interval (SnapshotSource.state source interval)
        (laterEpochs interval finish) 0) requests slices ∧
      unnumbered.Perm slices.flatten ∧ parts = renumber unnumbered := by
  obtain ⟨⟨first, later⟩, load, split⟩ := (Traversal.bind_eq_ok ..).1 split
  obtain ⟨unnumbered, walked, split⟩ := (Traversal.bind_eq_ok ..).1 split
  cases split
  have start : loadEpoch (SnapshotSource.after source interval 0) (0 * interval) =
      .ok (first, later) := by
    rw [Nat.zero_mul]
    exact load
  obtain ⟨yields, rfl, rfl⟩ := loadEpoch_after source later interval 0 first start
  have walked' : partsOver interval (laterEpochs interval finish) ((0 + 1) * interval)
      (SnapshotSource.after source interval 1) (SnapshotSource.state source interval 0) requests =
      .ok unnumbered := by
    rw [Nat.zero_add, Nat.one_mul]
    exact walked
  obtain ⟨known, slices, sliced, perm⟩ := slices_of_partsOver _ _ _ _ _ _ walked'
  refine ⟨fun index inside => ?_, slices, unnumbered, sliced, perm, rfl⟩
  rcases Nat.eq_zero_or_pos index with rfl | after
  · exact yields
  · exact known index after (by omega)

theorem mem_splitScheduleOver (requests parts : List Request) (source : σ) (interval finish : Nat)
    (split : splitScheduleOver requests source interval finish = .ok parts) (part : Request)
    (member : part ∈ parts) :
    ∃ request ∈ requests, ∃ slices, request.Slices interval (SnapshotSource.state source interval)
      (laterEpochs interval finish) 0 slices ∧ ∃ slice ∈ slices, ∃ id, part = { slice with id } := by
  obtain ⟨_, slices, unnumbered, sliced, perm, rfl⟩ := slices_of_splitScheduleOver _ _ _ _ _ split
  obtain ⟨slice, listed, id, rfl⟩ := mem_renumber unnumbered part member
  obtain ⟨request, known, own, found, inside⟩ :=
    Traversal.exists_of_mem_flatten _ _ _ sliced slice (perm.mem_iff.1 listed)
  exact ⟨request, known, own, found, slice, inside, id, rfl⟩

theorem slices_mem_splitScheduleOver (requests parts : List Request) (source : σ)
    (interval finish : Nat) (split : splitScheduleOver requests source interval finish = .ok parts)
    (request : Request) (member : request ∈ requests) :
    ∃ slices, request.Slices interval (SnapshotSource.state source interval)
      (laterEpochs interval finish) 0 slices ∧ ∀ slice ∈ slices, ∃ id, { slice with id } ∈ parts := by
  obtain ⟨_, slices, unnumbered, sliced, perm, rfl⟩ := slices_of_splitScheduleOver _ _ _ _ _ split
  obtain ⟨own, found, inside⟩ := Traversal.exists_subset_flatten _ _ _ sliced request member
  exact ⟨own, found, fun slice listed =>
    exists_mem_renumber unnumbered slice (perm.mem_iff.2 (inside listed))⟩

end
end Multicast
