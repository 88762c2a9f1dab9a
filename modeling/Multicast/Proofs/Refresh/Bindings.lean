import Multicast.Proofs.Refresh.Decisions
import Multicast.Proofs.Refresh.Receivers

/-!
Link bindings of a refresh. A refresh binds the ground links of the trees of its window and leaves
older bindings to their removal. Main statements: what is bound after a refresh, and that a removal
only sheds what the last refresh has not bound.
-/

namespace Multicast
open Std

namespace LinkBindings

theorem bound_bindAll (bindings : LinkBindings) (added : List LinkBinding) (binding : LinkBinding) :
    (bindings.bindAll added).1.bound[binding]? =
      (if binding ∈ added then some bindings.generation else bindings.bound[binding]?) ∧
      (bindings.bindAll added).1.generation = bindings.generation := by
  induction added generalizing bindings with
  | nil => simp [bindAll]
  | cons first rest ih =>
    obtain ⟨bound, generation⟩ := ih (bindings.bind first)
    unfold bindAll
    dsimp only
    refine ⟨bound.trans ?_, generation⟩
    simp only [bind, ExtTreeMap.getElem?_insert, Std.compare_eq_iff_eq, List.mem_cons]
    by_cases later : binding ∈ rest
    · simp [later]
    · by_cases same : first = binding
      · simp [later, same]
      · simp [later, same, Ne.symm same]

theorem isStale_eq_true (bindings : LinkBindings) (binding : LinkBinding) :
    bindings.isStale binding = true ↔
      ∃ generation, bindings.bound[binding]? = some generation ∧ generation < bindings.generation := by
  unfold isStale
  cases bindings.bound[binding]? with
  | none => simp
  | some generation => simp

/-- The bindings have lost at most some that were stale. -/
structure Sheds (bindings later : LinkBindings) : Prop where
  generation : later.generation = bindings.generation
  bound (binding : LinkBinding) : later.bound[binding]? = bindings.bound[binding]? ∨
    (later.bound[binding]? = none ∧ bindings.isStale binding = true)

theorem sheds_refl (bindings : LinkBindings) : bindings.Sheds bindings where
  generation := rfl
  bound _ := .inl rfl

theorem sheds_unbind (bindings later : LinkBindings) (sheds : bindings.Sheds later)
    (removed : LinkBinding) : bindings.Sheds (later.unbindIfStale removed) := by
  unfold unbindIfStale
  split
  · rename_i stale
    refine ⟨sheds.generation, fun binding => ?_⟩
    rw [ExtTreeMap.getElem?_erase]
    by_cases same : removed = binding
    · subst same
      rw [if_pos (by rw [compare_self])]
      obtain ⟨generation, found, older⟩ := (later.isStale_eq_true removed).1 stale
      rcases sheds.bound removed with kept | ⟨gone, _⟩
      · refine .inr ⟨rfl, (bindings.isStale_eq_true removed).2 ⟨generation, ?_, ?_⟩⟩
        · exact kept.symm.trans found
        · rwa [← sheds.generation]
      · rw [found] at gone
        cases gone
    · rw [if_neg (by rwa [Std.compare_eq_iff_eq])]
      exact sheds.bound binding
  · exact sheds

end LinkBindings

def NodeRoles.Straddles (roles : NodeRoles) (one other : NodeId) : Prop :=
  (one < roles.satelliteCount ∧ roles.satelliteCount ≤ other ∧ other < roles.nodeCount) ∨
    (other < roles.satelliteCount ∧ roles.satelliteCount ≤ one ∧ one < roles.nodeCount)

theorem NodeRoles.crossesGroundLink_eq_true (roles : NodeRoles) (one other : NodeId) :
    roles.crossesGroundLink one other = true ↔ roles.Straddles one other := by
  simp only [crossesGroundLink, isSatellite, isGroundStation, Straddles, Bool.or_eq_true,
    Bool.and_eq_true, decide_eq_true_eq]
  exact or_congr Iff.rfl and_comm

namespace Tree

theorem mem_bindings (tree : Tree) (roles : NodeRoles) (binding : LinkBinding) :
    binding ∈ tree.bindings roles ↔ ∃ hop ∈ tree.hops,
      roles.crossesGroundLink hop.sender hop.receiver = true ∧ tree.binding hop = binding := by
  simp [bindings, and_assoc]

end Tree

namespace Generation

theorem mem_bindings_foldlM (roles : NodeRoles) (snapshot : Snapshot) (generation next : Generation)
    (requests : List Request)
    (built : requests.foldlM (Generation.addTree roles snapshot) generation = .ok next)
    (binding : LinkBinding) :
    binding ∈ next.bindings ↔ binding ∈ generation.bindings ∨ ∃ request ∈ requests, ∃ tree,
      Tree.build request snapshot = .ok tree ∧ binding ∈ tree.bindings roles := by
  induction requests generalizing generation with
  | nil =>
    cases built
    simp
  | cons request rest ih =>
    obtain ⟨middle, added, built⟩ := (Traversal.foldlM_cons_eq_ok ..).1 built
    obtain ⟨tree, found, _, rfl⟩ := (addTree_eq_ok ..).1 added
    rw [ih _ built]
    simp only [List.mem_append, List.mem_cons, exists_eq_or_imp, found, Except.ok.injEq,
      exists_eq_left', or_assoc]

end Generation

namespace RefreshDriver
variable {σ : Type}

/-- The binding is for the frames that cross between a satellite and a ground station on a hop of the
tree of a request that is active in the window of an epoch. -/
def Needs (driver : RefreshDriver σ) (snapshot : Snapshot) (epoch : Nat) (binding : LinkBinding) :
    Prop :=
  ∃ request ∈ driver.activeRequests epoch, ∃ tree, Tree.build request snapshot = .ok tree ∧
    ∃ hop ∈ tree.hops, driver.roles.Straddles hop.sender hop.receiver ∧
      binding = ⟨request.group .routeBase, hop.sender, hop.outInterface, hop.receiver, hop.inInterface⟩

theorem needs_iff (driver : RefreshDriver σ) (snapshot : Snapshot) (epoch : Nat)
    (binding : LinkBinding) :
    driver.Needs snapshot epoch binding ↔ ∃ request ∈ driver.activeRequests epoch, ∃ tree,
      Tree.build request snapshot = .ok tree ∧ binding ∈ tree.bindings driver.roles := by
  refine exists_congr fun request => and_congr_right fun _ => exists_congr fun tree =>
    and_congr_right fun built => ?_
  simp only [Tree.mem_bindings, NodeRoles.crossesGroundLink_eq_true, Tree.binding,
    request.group_of_build snapshot tree built, eq_comm (a := binding)]

/-- A refresh that succeeds binds what its window needs and leaves what was bound before. -/
theorem bound_of_refresh [SnapshotSource σ] (driver later : RefreshDriver σ) (epoch : Nat)
    (outcome : RefreshOutcome) (timers : List TimerRequest)
    (routed : driver.config.forwarding = .routeTable)
    (succeeded : driver.refresh epoch = (.ok (outcome, timers), later)) :
    ∃ snapshot, (SnapshotSource.load driver.source epoch).1 = .ok snapshot ∧
      later.snapshot = some snapshot ∧
      later.bindings.generation = driver.bindings.generation + 1 ∧
      (∀ binding, driver.Needs snapshot epoch binding →
        later.bindings.bound[binding]? = some (driver.bindings.generation + 1)) ∧
      ∀ binding, ¬driver.Needs snapshot epoch binding →
        later.bindings.bound[binding]? = driver.bindings.bound[binding]? := by
  cases driver.ends_of_refresh_eq later epoch _ succeeded with
  | built snapshot source generation follows load build outcome timers later install =>
    cases install
    rw [driver.build_routeTable snapshot _ routed] at build
    have bound := LinkBindings.bound_bindAll driver.bindings.beginGeneration generation.bindings
    have needs (binding : LinkBinding) :
        binding ∈ generation.bindings ↔ driver.Needs snapshot epoch binding := by
      rw [Generation.mem_bindings_foldlM _ _ _ _ _ build, needs_iff]
      simp
    refine ⟨snapshot, by rw [load], rfl, (bound default).2, fun binding needed => ?_,
      fun binding other => ?_⟩
    · exact (bound binding).1.trans (if_pos ((needs binding).2 needed))
    · exact (bound binding).1.trans (if_neg fun listed => other ((needs binding).1 listed))

end RefreshDriver
end Multicast
