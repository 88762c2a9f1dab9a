import Mathlib.Data.List.Basic

/-!
Stable sorting by a key. Main statement: the values in the order of a key, equal ones as they stood,
are the one list that ascends and has the values of each key in the order in which they stood.
-/

namespace Multicast
variable {α : Type} (key : α → Nat)

def sortedBy (values : List α) : List α := values.mergeSort fun one other => key one ≤ key other

def Ascends (values : List α) : Prop := values.Pairwise fun one other => key one ≤ key other

/-- An ascending list is determined by the order of the values of each key. -/
theorem Ascends.eq_of_filter (one other : List α) (ascends : Ascends key one)
    (ascends' : Ascends key other)
    (same : ∀ place, one.filter (key · = place) = other.filter (key · = place)) : one = other := by
  have within (one other : List α) (value : α) (member : value ∈ one)
      (same : one.filter (key · = key value) = other.filter (key · = key value)) :
      value ∈ other := by
    have inside : value ∈ one.filter (key · = key value) := List.mem_filter.2 ⟨member, by simp⟩
    rw [same] at inside
    exact (List.mem_filter.1 inside).1
  induction one generalizing other with
  | nil =>
    cases other with
    | nil => rfl
    | cons first rest => simpa using same (key first)
  | cons first rest ih =>
    cases other with
    | nil => simpa using same (key first)
    | cons first' rest' =>
      obtain ⟨before, tail⟩ := List.pairwise_cons.1 ascends
      obtain ⟨before', tail'⟩ := List.pairwise_cons.1 ascends'
      have level : key first = key first' := by
        have inside := within _ _ first List.mem_cons_self (same _)
        have inside' := within _ _ first' List.mem_cons_self (same _).symm
        rcases List.mem_cons.1 inside with rfl | later
        · rfl
        · rcases List.mem_cons.1 inside' with rfl | later'
          · rfl
          · exact Nat.le_antisymm (before first' later') (before' first later)
      have heads := same (key first)
      simp only [List.filter_cons, level, decide_true, ↓reduceIte, List.cons.injEq] at heads
      obtain ⟨rfl, _⟩ := heads
      congr 1
      refine ih rest' tail tail' fun place => ?_
      have tails := same place
      rw [List.filter_cons, List.filter_cons] at tails
      split at tails
      · exact (List.cons.inj tails).2
      · exact tails

theorem Ascends.eq_append (values : List α) (least : Nat) (ascends : Ascends key values)
    (above : ∀ value ∈ values, least ≤ key value) :
    values = values.filter (key · = least) ++ values.filter (key · ≠ least) := by
  induction values with
  | nil => rfl
  | cons first rest ih =>
    obtain ⟨before, ascends⟩ := List.pairwise_cons.1 ascends
    obtain ⟨own, above⟩ := List.forall_mem_cons.1 above
    by_cases here : key first = least
    · simpa [here] using ih ascends above
    · have none : ∀ value ∈ first :: rest, key value ≠ least := by
        refine List.forall_mem_cons.2 ⟨here, fun value member => ?_⟩
        have := before value member
        omega
      rw [List.filter_eq_nil_iff.2 (by simpa using none), List.filter_eq_self.2 (by simpa using none)]
      rfl

section
variable (values : List α)

theorem sortedBy_perm : (sortedBy key values).Perm values := List.mergeSort_perm _ _

theorem key_trans (one other third : α) (first : decide (key one ≤ key other) = true)
    (second : decide (key other ≤ key third) = true) : decide (key one ≤ key third) = true := by
  rw [decide_eq_true_eq] at first second ⊢
  exact Nat.le_trans first second

theorem key_total (one other : α) :
    (decide (key one ≤ key other) || decide (key other ≤ key one)) = true := by
  simpa using Nat.le_total (key one) (key other)

theorem ascends_sortedBy : Ascends key (sortedBy key values) :=
  (List.pairwise_mergeSort (key_trans key) (key_total key) values).imp of_decide_eq_true

theorem sortedBy_of_ascends (ascends : Ascends key values) : sortedBy key values = values :=
  List.mergeSort_of_pairwise (ascends.imp decide_eq_true)

theorem filter_key_sortedBy (place : Nat) :
    (sortedBy key values).filter (key · = place) = values.filter (key · = place) := by
  have level : (values.filter (key · = place)).Pairwise
      fun one other => decide (key one ≤ key other) = true := by
    rw [List.pairwise_filter]
    apply List.pairwise_of_forall
    intro one other here here'
    simp_all
  have kept := (List.sublist_mergeSort (key_trans key) (key_total key) level
    List.filter_sublist).filter (key · = place)
  simp only [List.filter_filter, Bool.and_self] at kept
  exact (kept.eq_of_length ((sortedBy_perm key values).filter _).length_eq.symm).symm

theorem filter_sortedBy (kept : α → Bool) :
    (sortedBy key values).filter kept = sortedBy key (values.filter kept) := by
  refine Ascends.eq_of_filter key _ _ ((ascends_sortedBy key values).filter _)
    (ascends_sortedBy key _) fun place => ?_
  rw [filter_key_sortedBy, List.filter_comm, filter_key_sortedBy, List.filter_comm]

theorem sortedBy_eq_append (least : Nat) (above : ∀ value ∈ values, least ≤ key value) :
    sortedBy key values = values.filter (key · = least) ++
      sortedBy key (values.filter (key · ≠ least)) := by
  rw [← filter_sortedBy, ← filter_key_sortedBy]
  refine (ascends_sortedBy key values).eq_append key _ least fun value member => ?_
  exact above value ((sortedBy_perm key values).mem_iff.1 member)

end

theorem sortedBy_eq_iff (one other : List α) :
    sortedBy key one = sortedBy key other ↔
      ∀ place, one.filter (key · = place) = other.filter (key · = place) := by
  constructor
  · intro same place
    rw [← filter_key_sortedBy, same, filter_key_sortedBy]
  · intro same
    refine Ascends.eq_of_filter key _ _ (ascends_sortedBy key one) (ascends_sortedBy key other) ?_
    intro place
    rw [filter_key_sortedBy, same, filter_key_sortedBy]

theorem map_key_sortedBy_of_perm (one other : List α) (perm : one.Perm other) :
    (sortedBy key one).map key = (sortedBy key other).map key := by
  have sorted := (sortedBy_perm key one).trans (perm.trans (sortedBy_perm key other).symm)
  refine (sorted.map key).eq_of_pairwise (fun _ _ _ _ => Nat.le_antisymm) ?_ ?_
  · exact List.pairwise_map.2 (ascends_sortedBy key one)
  · exact List.pairwise_map.2 (ascends_sortedBy key other)

theorem ascends_filter_iff (place : α → Nat) (values : List α) :
    (∀ spot, Ascends key (values.filter (place · = spot))) ↔
      values.Pairwise fun one other => place one = place other → key one ≤ key other := by
  constructor
  · intro ascends
    induction values with
    | nil => exact .nil
    | cons first rest ih =>
      refine List.pairwise_cons.2 ⟨fun other member level => ?_, ih fun spot => ?_⟩
      · have own := ascends (place first)
        rw [List.filter_cons_of_pos (by simp)] at own
        exact (List.pairwise_cons.1 own).1 other (List.mem_filter.2 ⟨member, by simp [level]⟩)
      · exact (ascends spot).sublist ((List.sublist_cons_self first rest).filter _)
  · intro ties spot
    unfold Ascends
    rw [List.pairwise_filter]
    refine ties.imp fun ordered here here' => ordered ?_
    rw [of_decide_eq_true here, of_decide_eq_true here']

end Multicast
