import Multicast.Proofs.Refresh.Bindings

/-!
Renewal of link bindings. A refresh renews the bindings that the trees of its window need, and asks
for the removal of those that the trees before it were the last to need. Main statements: a binding
has the current generation exactly as long as the trees in force need it, and whatever a refresh
leaves stale was stale before or is asked to be removed.
-/

namespace Multicast
open Std

namespace LinkBindings

theorem mem_newlyStale (bindings : LinkBindings) (binding : LinkBinding) :
    binding ∈ bindings.newlyStale ↔
      ∃ generation, bindings.bound[binding]? = some generation ∧
        generation + 1 = bindings.generation := by
  unfold newlyStale
  rw [ExtTreeMap.mem_keys, ExtTreeMap.mem_iff_isSome_getElem?, ExtTreeMap.getElem?_filter]
  cases bindings.bound[binding]? with
  | none => simp
  | some generation => simp

theorem Sheds.isStale (bindings later : LinkBindings) (sheds : bindings.Sheds later)
    (binding : LinkBinding) (stale : later.isStale binding = true) :
    bindings.isStale binding = true := by
  cases sheds.bound binding with
  | inl kept =>
    obtain ⟨generation, found, older⟩ := (later.isStale_eq_true binding).1 stale
    exact (bindings.isStale_eq_true binding).2
      ⟨generation, kept.symm.trans found, Nat.lt_of_lt_of_eq older sheds.generation⟩
  | inr shed => exact shed.2

theorem isStale_unbindIfStale (bindings : LinkBindings) (binding : LinkBinding) :
    (bindings.unbindIfStale binding).isStale binding = false := by
  unfold unbindIfStale
  cases stale : bindings.isStale binding with
  | false => rwa [if_neg (by decide)]
  | true =>
    rw [if_pos rfl]
    unfold isStale
    rw [ExtTreeMap.getElem?_erase_self]

theorem eq_of_unbindIfStale (bindings : LinkBindings) (removed binding : LinkBinding)
    (bound : binding ∈ bindings.bound) (gone : binding ∉ (bindings.unbindIfStale removed).bound) :
    removed = binding ∧ bindings.isStale binding = true := by
  unfold unbindIfStale at gone
  split at gone
  · rename_i stale
    have same : removed = binding := by
      by_contra different
      apply gone
      rw [ExtTreeMap.mem_erase, ne_eq, Std.compare_eq_iff_eq]
      exact ⟨different, bound⟩
    exact ⟨same, same ▸ stale⟩
  · exact absurd bound gone

end LinkBindings

namespace RefreshDriver
variable {σ : Type}

/-- A tree in force needs the binding: that of a request that is active in the current epoch. With
bitstrings no tree is in force. -/
def NeedsNow (driver : RefreshDriver σ) (binding : LinkBinding) : Prop :=
  driver.config.forwarding = .routeTable ∧ ∃ epoch snapshot, driver.lastEpoch = some epoch ∧
    driver.snapshot = some snapshot ∧ driver.Needs snapshot epoch binding

theorem needs_of_setting (driver later : RefreshDriver σ) (same : later.setting = driver.setting)
    (snapshot : Snapshot) (epoch : Nat) (binding : LinkBinding) :
    later.Needs snapshot epoch binding ↔ driver.Needs snapshot epoch binding := by
  simp only [setting, Prod.mk.injEq] at same
  obtain ⟨config, roles, requests, _⟩ := same
  unfold Needs activeRequests windowEnd
  rw [config, roles, requests]

/-- What the trees in force need has the current generation, and whatever else is bound has an older
one. -/
structure Current (driver : RefreshDriver σ) : Prop where
  needed (binding : LinkBinding) (needs : driver.NeedsNow binding) :
    driver.bindings.bound[binding]? = some driver.bindings.generation
  unneeded (binding : LinkBinding) (generation : Nat)
    (bound : driver.bindings.bound[binding]? = some generation)
    (idle : ¬driver.NeedsNow binding) : generation < driver.bindings.generation

theorem current_start (config : RefreshConfig) (source : σ) (roles : NodeRoles)
    (requests : List Request) (positions : BitPositions) :
    (start config source roles requests positions).Current where
  needed binding needs := by
    obtain ⟨_, _, _, last, _⟩ := needs
    cases last
  unneeded binding generation bound := by simp [start, LinkBindings.empty] at bound

theorem Current.needsNow_iff (driver : RefreshDriver σ) (current : driver.Current)
    (binding : LinkBinding) :
    driver.NeedsNow binding ↔
      driver.bindings.bound[binding]? = some driver.bindings.generation := by
  refine ⟨current.needed binding, fun bound => ?_⟩
  by_contra idle
  exact Nat.lt_irrefl _ (current.unneeded binding _ bound idle)

theorem Current.isStale_eq_true (driver : RefreshDriver σ) (current : driver.Current)
    (binding : LinkBinding) :
    driver.bindings.isStale binding = true ↔
      binding ∈ driver.bindings.bound ∧ ¬driver.NeedsNow binding := by
  rw [LinkBindings.isStale_eq_true, ExtTreeMap.mem_iff_isSome_getElem?, Option.isSome_iff_exists]
  constructor
  · intro stale
    obtain ⟨generation, found, older⟩ := stale
    refine ⟨⟨generation, found⟩, fun needs => ?_⟩
    cases found.symm.trans (current.needed binding needs)
    exact Nat.lt_irrefl _ older
  · intro idle
    obtain ⟨⟨generation, found⟩, idle⟩ := idle
    exact ⟨generation, found, current.unneeded binding generation found idle⟩

theorem current_sheds (driver : RefreshDriver σ) (current : driver.Current)
    (bindings : LinkBindings) (sheds : driver.bindings.Sheds bindings) :
    { driver with bindings }.Current where
  needed binding needs := by
    have held := current.needed binding needs
    cases sheds.bound binding with
    | inl kept => exact (kept.trans held).trans (congrArg some sheds.generation.symm)
    | inr shed => exact absurd needs ((current.isStale_eq_true driver binding).1 shed.2).2
  unneeded binding generation bound idle := by
    cases sheds.bound binding with
    | inl kept =>
      have older := current.unneeded binding generation (kept.symm.trans bound) idle
      exact Nat.lt_of_lt_of_eq older sheds.generation.symm
    | inr shed => cases shed.1.symm.trans bound

section
variable [SnapshotSource σ] (driver later : RefreshDriver σ) (epoch : Nat)
  (outcome : RefreshOutcome) (timers : List TimerRequest)
  (succeeded : driver.refresh epoch = (.ok (outcome, timers), later))
include succeeded

theorem renewed_of_refresh :
    later.bindings.generation = driver.bindings.generation + 1 ∧
      (∀ binding, later.NeedsNow binding →
        later.bindings.bound[binding]? = some (driver.bindings.generation + 1)) ∧
      ∀ binding, ¬later.NeedsNow binding →
        later.bindings.bound[binding]? = driver.bindings.bound[binding]? := by
  have setting := driver.setting_refresh epoch
  rw [succeeded] at setting
  have config : later.config = driver.config := congrArg Prod.fst setting
  cases mode : driver.config.forwarding with
  | routeTable =>
    obtain ⟨snapshot, _, held, generation, needed, unneeded⟩ :=
      driver.bound_of_refresh later epoch outcome timers mode succeeded
    have last : later.lastEpoch = some epoch := by
      cases driver.ends_of_refresh_eq later epoch _ succeeded with
      | built _ _ _ _ _ _ _ _ _ install =>
        cases install
        rfl
    have needs (binding : LinkBinding) :
        later.NeedsNow binding ↔ driver.Needs snapshot epoch binding := by
      unfold NeedsNow
      rw [config, mode, held, last]
      simp [driver.needs_of_setting later setting]
    exact ⟨generation, fun binding now => needed binding ((needs binding).1 now),
      fun binding idle => unneeded binding fun need => idle ((needs binding).2 need)⟩
  | bier =>
    -- A generation of bitstring tables has no bindings.
    have idle (binding : LinkBinding) : ¬later.NeedsNow binding := by
      intro needs
      have routed := needs.1
      rw [config, mode] at routed
      cases routed
    cases driver.ends_of_refresh_eq later epoch _ succeeded with
    | built snapshot source generation follows load build outcome timers later install =>
      cases install
      simp only [RefreshDriver.build, mode] at build
      split at build
      · cases build
      · cases build
        exact ⟨rfl, fun binding needs => absurd needs (idle binding), fun _ _ => rfl⟩

theorem timers_of_refresh :
    timers = driver.timers later.bindings.newlyStale (driver.nextEpoch? epoch) := by
  cases driver.ends_of_refresh_eq later epoch _ succeeded with
  | built _ _ _ _ _ _ _ _ _ install =>
    cases install
    rfl

/-- What a refresh leaves stale was stale before, or the refresh asks for its removal. -/
theorem newlyStale_or_isStale_of_refresh (binding : LinkBinding)
    (stale : later.bindings.isStale binding = true) :
    binding ∈ later.bindings.newlyStale ∨ driver.bindings.isStale binding = true := by
  obtain ⟨next, needed, unneeded⟩ :=
    driver.renewed_of_refresh later epoch outcome timers succeeded
  obtain ⟨generation, bound, older⟩ := (later.bindings.isStale_eq_true binding).1 stale
  have idle : ¬later.NeedsNow binding := by
    intro needs
    cases bound.symm.trans (needed binding needs)
    omega
  rw [unneeded binding idle] at bound
  by_cases last : generation = driver.bindings.generation
  · left
    refine (later.bindings.mem_newlyStale binding).2 ⟨generation, ?_, by omega⟩
    rw [unneeded binding idle, bound]
  · right
    exact (driver.bindings.isStale_eq_true binding).2 ⟨generation, bound, by omega⟩

theorem needs_of_newlyStale (current : driver.Current) (binding : LinkBinding)
    (stale : binding ∈ later.bindings.newlyStale) :
    driver.NeedsNow binding ∧ ¬later.NeedsNow binding := by
  obtain ⟨next, needed, unneeded⟩ :=
    driver.renewed_of_refresh later epoch outcome timers succeeded
  obtain ⟨generation, bound, last⟩ := (later.bindings.mem_newlyStale binding).1 stale
  have idle : ¬later.NeedsNow binding := by
    intro needs
    cases bound.symm.trans (needed binding needs)
    omega
  refine ⟨?_, idle⟩
  by_contra unused
  rw [unneeded binding idle] at bound
  have older := current.unneeded binding generation bound unused
  omega

end

theorem current_refresh [SnapshotSource σ] (driver : RefreshDriver σ) (current : driver.Current)
    (epoch : Nat) : (driver.refresh epoch).2.Current := by
  cases refreshed : driver.refresh epoch with
  | mk result later =>
    cases result with
    | error error =>
      obtain ⟨_, _, rfl⟩ := driver.exists_of_refresh_error later epoch error refreshed
      exact ⟨current.needed, current.unneeded⟩
    | ok result =>
      obtain ⟨next, needed, unneeded⟩ :=
        driver.renewed_of_refresh later epoch result.1 result.2 refreshed
      constructor
      · intro binding needs
        exact (needed binding needs).trans (congrArg some next.symm)
      · intro binding generation bound idle
        have before := (unneeded binding idle).symm.trans bound
        have bounded : generation ≤ driver.bindings.generation := by
          by_cases needs : driver.NeedsNow binding
          · cases before.symm.trans (current.needed binding needs)
            exact Nat.le_refl _
          · exact Nat.le_of_lt (current.unneeded binding generation before needs)
        dsimp only
        omega

theorem mem_bound_refresh [SnapshotSource σ] (driver : RefreshDriver σ) (epoch : Nat)
    (binding : LinkBinding) (bound : binding ∈ driver.bindings.bound) :
    binding ∈ (driver.refresh epoch).2.bindings.bound := by
  cases refreshed : driver.refresh epoch with
  | mk result later =>
    cases result with
    | error error =>
      obtain ⟨_, _, rfl⟩ := driver.exists_of_refresh_error later epoch error refreshed
      exact bound
    | ok result =>
      obtain ⟨_, needed, unneeded⟩ :=
        driver.renewed_of_refresh later epoch result.1 result.2 refreshed
      rw [ExtTreeMap.mem_iff_isSome_getElem?] at bound ⊢
      by_cases needs : later.NeedsNow binding
      · rw [needed binding needs]
        rfl
      · rwa [unneeded binding needs]

theorem current_unbind (driver : RefreshDriver σ) (current : driver.Current)
    (binding : LinkBinding) : (driver.unbind binding).Current :=
  driver.current_sheds current _
    (LinkBindings.sheds_unbind _ _ (LinkBindings.sheds_refl driver.bindings) binding)

end RefreshDriver
end Multicast
