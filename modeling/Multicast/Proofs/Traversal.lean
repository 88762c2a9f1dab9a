import Mathlib.Data.List.Forall2

/-!
Traversals that stop at the first error. A traversal succeeds exactly if every step does, and then
its result is made of the results of the steps.
-/

namespace Multicast.Traversal
variable {ε α β : Type}

theorem bind_eq_ok (first : Except ε α) (next : α → Except ε β) (result : β) :
    first >>= next = .ok result ↔ ∃ value, first = .ok value ∧ next value = .ok result := by
  cases first with
  | error error => simp [bind, Except.bind]
  | ok value => simp [bind, Except.bind]

theorem guard_eq_ok (condition : Prop) [Decidable condition] (error : ε) (next : PUnit → Except ε β)
    (otherwise : Except ε β) (result : β) :
    (if condition then (throw error : Except ε PUnit) >>= next else otherwise) = .ok result ↔
      ¬condition ∧ otherwise = .ok result := by
  by_cases holds : condition
  · simp [holds, throw, throwThe, MonadExceptOf.throw, bind, Except.bind]
  · simp [holds]

theorem mapM_cons_eq_ok (step : α → Except ε β) (value : α) (rest : List α) (results : List β) :
    (value :: rest).mapM step = .ok results ↔
      ∃ head tail, step value = .ok head ∧ rest.mapM step = .ok tail ∧ results = head :: tail := by
  simp only [List.mapM_cons, bind_eq_ok, pure, Except.pure, Except.ok.injEq]
  constructor
  · rintro ⟨head, first, tail, second, rfl⟩
    exact ⟨head, tail, first, second, rfl⟩
  · rintro ⟨head, tail, first, second, rfl⟩
    exact ⟨head, first, tail, second, rfl⟩

theorem mapM_eq_ok (step : α → Except ε β) (values : List α) (results : List β) :
    values.mapM step = .ok results ↔
      List.Forall₂ (fun value result => step value = .ok result) values results := by
  induction values generalizing results with
  | nil => simp [pure, Except.pure, eq_comm]
  | cons value rest ih =>
    rw [mapM_cons_eq_ok, List.forall₂_cons_left_iff]
    simp only [ih]

theorem mapM_of_forall (step : α → Except ε β) (result : α → β) (values : List α)
    (each : ∀ value ∈ values, step value = .ok (result value)) :
    values.mapM step = .ok (values.map result) := by
  rw [mapM_eq_ok, List.forall₂_map_right_iff, List.forall₂_same]
  exact each

theorem exists_mapM_iff (step : α → Except ε β) (values : List α) :
    (∃ results, values.mapM step = .ok results) ↔ ∀ value ∈ values, ∃ result, step value = .ok result := by
  induction values with
  | nil => simp [pure, Except.pure]
  | cons value rest ih =>
    rw [List.forall_mem_cons, ← ih]
    constructor
    · rintro ⟨results, traversed⟩
      obtain ⟨head, tail, first, others, _⟩ := (mapM_cons_eq_ok ..).1 traversed
      exact ⟨⟨head, first⟩, tail, others⟩
    · rintro ⟨⟨head, first⟩, tail, others⟩
      exact ⟨head :: tail, (mapM_cons_eq_ok ..).2 ⟨head, tail, first, others, rfl⟩⟩

theorem mapM_of_first_error (step : α → Except ε β) (before after : List α) (value : α) (error : ε)
    (succeed : ∀ earlier ∈ before, ∃ result, step earlier = .ok result)
    (failed : step value = .error error) :
    (before ++ value :: after).mapM step = .error error := by
  induction before with
  | nil => simp [List.mapM_cons, failed, bind, Except.bind]
  | cons first rest ih =>
    obtain ⟨⟨head, found⟩, succeed⟩ := List.forall_mem_cons.1 succeed
    rw [List.cons_append, List.mapM_cons, found, ih succeed]
    rfl

theorem foldlM_cons_eq_ok (step : β → α → Except ε β) (value : α) (rest : List α)
    (first result : β) :
    (value :: rest).foldlM step first = .ok result ↔
      ∃ next, step first value = .ok next ∧ rest.foldlM step next = .ok result := by
  rw [List.foldlM_cons, bind_eq_ok]

theorem foldlM_keeps (kept : β → Prop) (step : β → α → Except ε β)
    (keeps : ∀ state value next, kept state → step state value = .ok next → kept next)
    (values : List α) (first result : β) (holds : kept first)
    (folded : values.foldlM step first = .ok result) : kept result := by
  induction values generalizing first with
  | nil =>
    cases folded
    exact holds
  | cons value rest ih =>
    obtain ⟨next, stepped, folded⟩ := (foldlM_cons_eq_ok ..).1 folded
    exact ih next (keeps first value next holds stepped) folded

theorem mapM_eq_error (step : α → Except ε β) (values : List α) (error : ε)
    (failed : values.mapM step = .error error) : ∃ value ∈ values, step value = .error error := by
  induction values with
  | nil => simp [pure, Except.pure] at failed
  | cons value rest ih =>
    cases first : step value with
    | error other =>
      simp only [List.mapM_cons, first, bind, Except.bind, Except.error.injEq] at failed
      exact ⟨value, List.mem_cons_self, failed ▸ first⟩
    | ok head =>
      cases second : rest.mapM step with
      | error other =>
        simp only [List.mapM_cons, first, second, bind, Except.bind, Except.error.injEq] at failed
        obtain ⟨inner, member, found⟩ := ih (failed ▸ second)
        exact ⟨inner, List.mem_cons_of_mem _ member, found⟩
      | ok tail => simp [List.mapM_cons, first, second, bind, Except.bind, pure, Except.pure] at failed

theorem foldlM_eq_error (step : β → α → Except ε β) (values : List α) (first : β) (error : ε)
    (failed : values.foldlM step first = .error error) :
    ∃ value ∈ values, ∃ state, step state value = .error error := by
  induction values generalizing first with
  | nil => simp [pure, Except.pure] at failed
  | cons value rest ih =>
    rw [List.foldlM_cons] at failed
    cases next : step first value with
    | error other =>
      simp only [next, bind, Except.bind, Except.error.injEq] at failed
      exact ⟨value, List.mem_cons_self, first, failed ▸ next⟩
    | ok state =>
      simp only [next, bind, Except.bind] at failed
      obtain ⟨inner, member, found⟩ := ih state failed
      exact ⟨inner, List.mem_cons_of_mem _ member, found⟩

theorem exists_of_mem_flatten (related : α → List β → Prop) (values : List α)
    (results : List (List β)) (each : List.Forall₂ related values results) (result : β)
    (member : result ∈ results.flatten) :
    ∃ value ∈ values, ∃ own, related value own ∧ result ∈ own := by
  induction each with
  | nil => cases member
  | @cons value own values results first _ ih =>
    rcases List.mem_append.1 member with here | later
    · exact ⟨value, List.mem_cons_self, own, first, here⟩
    · obtain ⟨other, listed, found⟩ := ih later
      exact ⟨other, List.mem_cons_of_mem _ listed, found⟩

theorem exists_subset_flatten (related : α → List β → Prop) (values : List α)
    (results : List (List β)) (each : List.Forall₂ related values results) (value : α)
    (member : value ∈ values) : ∃ own, related value own ∧ own ⊆ results.flatten := by
  induction each with
  | nil => cases member
  | @cons first own values results found _ ih =>
    rcases List.mem_cons.1 member with rfl | later
    · exact ⟨own, found, List.subset_append_left _ _⟩
    · obtain ⟨other, found, inside⟩ := ih later
      exact ⟨other, found, List.Subset.trans inside (List.subset_append_right _ _)⟩

theorem eq_of_flatMap_eq (block : α → List β) (one other : List α)
    (inhabited : ∀ value ∈ one, block value ≠ []) (inhabited' : ∀ value ∈ other, block value ≠ [])
    (apart : ∀ value ∈ one, ∀ value' ∈ other, ∀ entry ∈ block value, entry ∈ block value' →
      value = value')
    (same : one.flatMap block = other.flatMap block) : one = other := by
  induction one generalizing other with
  | nil =>
    cases other with
    | nil => rfl
    | cons first rest =>
      rw [List.flatMap_nil, List.flatMap_cons] at same
      exact absurd (List.append_eq_nil_iff.1 same.symm).1 (inhabited' first List.mem_cons_self)
  | cons first rest ih =>
    cases other with
    | nil =>
      rw [List.flatMap_nil, List.flatMap_cons] at same
      exact absurd (List.append_eq_nil_iff.1 same).1 (inhabited first List.mem_cons_self)
    | cons first' rest' =>
      obtain ⟨nonempty, tail⟩ := List.forall_mem_cons.1 inhabited
      obtain ⟨nonempty', tail'⟩ := List.forall_mem_cons.1 inhabited'
      obtain ⟨entry, _, begins⟩ := List.exists_cons_of_ne_nil nonempty
      obtain ⟨entry', _, begins'⟩ := List.exists_cons_of_ne_nil nonempty'
      rw [List.flatMap_cons, List.flatMap_cons] at same
      have heads : entry = entry' := by
        rw [begins, begins', List.cons_append, List.cons_append] at same
        exact (List.cons.inj same).1
      obtain rfl : first = first' :=
        apart first List.mem_cons_self first' List.mem_cons_self entry (by simp [begins])
          (by simp [begins', heads])
      congr 1
      refine ih rest' tail tail' (fun value member value' member' => ?_)
        (List.append_cancel_left same)
      exact apart value (List.mem_cons_of_mem _ member) value' (List.mem_cons_of_mem _ member')

end Multicast.Traversal
