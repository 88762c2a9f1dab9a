import Multicast.Experiment.Run
import Multicast.Proofs.Traffic.Generated
import Multicast.Traffic.Sampler
import Mathlib.Data.List.Perm.Subperm

/-!
Sampled draws. Numbers are drawn below a bound, and destinations are taken from the candidates one
after another, each of them once. Main statement: the draws from any seed are draws that the network and
the run allow, so that what is known of generated schedules is known of the schedule of an experiment.
-/

namespace Multicast
namespace Sampler

theorem below_lt (bound : Nat) (generator : StdGen) (positive : 0 < bound) :
    (below bound generator).1 < bound := by
  unfold below randNat
  rw [if_neg (Nat.not_lt_zero _), if_neg (Nat.not_lt_zero _)]
  have span : bound - 1 - 0 + 1 = bound := by omega
  dsimp only
  rw [span, Nat.zero_add]
  exact Nat.mod_lt _ positive

theorem countUpTo_pos (limit : Nat) (mean : Float) (generator : StdGen) :
    0 < (countUpTo limit mean generator).1 := Nat.succ_pos _

theorem perm_cons_pop_swap (elements : Array Nat) (index : Nat) (inside : index < elements.size) :
    (elements[index] :: (elements.swapIfInBounds index (elements.size - 1)).pop.toList).Perm
      elements.toList := by
  have last : elements.size - 1 < elements.size := by omega
  rw [Array.swapIfInBounds_def, dif_pos inside, dif_pos last, Array.toList_pop]
  have permuted := (Array.swap_perm inside last).toList
  generalize swapped : elements.swap index (elements.size - 1) = moved at permuted ⊢
  have size : moved.size = elements.size := by rw [← swapped, Array.size_swap]
  have some : moved.toList ≠ [] := List.ne_nil_of_length_pos (by rw [Array.length_toList]; omega)
  have taken : moved.toList.getLast some = elements[index] := by
    subst swapped
    rw [List.getLast_eq_getElem]
    simp only [Array.length_toList, Array.size_swap, Array.getElem_toList, Array.getElem_swap_right]
  have whole := List.dropLast_append_getLast some
  rw [taken] at whole
  exact (List.perm_append_singleton _ _).symm.trans ((List.Perm.of_eq whole).trans permuted)

theorem subperm_choose (count : Nat) (elements : Array Nat) (generator : StdGen) :
    (choose count elements generator).1.Subperm elements.toList := by
  induction count generalizing elements generator with
  | zero => exact List.nil_subperm
  | succ count ih =>
    unfold choose
    dsimp only
    split
    · exact List.nil_subperm
    · next element found =>
      obtain ⟨inside, rfl⟩ := Array.getElem?_eq_some_iff.1 found
      exact ((List.subperm_cons _).2 (ih _ _)).trans (perm_cons_pop_swap elements _ inside).subperm

theorem choose_ne_nil (count : Nat) (elements : Array Nat) (generator : StdGen)
    (wanted : 0 < count) (some : 0 < elements.size) : (choose count elements generator).1 ≠ [] := by
  cases count with
  | zero => cases wanted
  | succ count =>
    unfold choose
    dsimp only
    rw [Array.getElem?_eq_getElem (below_lt _ _ some)]
    exact List.cons_ne_nil _ _

section
variable (config : GeneratorConfig) (roles : NodeRoles) (several : 2 ≤ roles.stationCount)
  (time : config.finish ≠ 0)
include several time

theorem valid_draw (generator : StdGen) :
    (draw config roles generator).1.Valid roles config.finish := by
  obtain ⟨count, later, wanted, selects⟩ : ∃ count later, 0 < count ∧
      (draw config roles generator).1.selection =
        (choose count (Array.range (roles.stationCount - 1)) later).1 :=
    ⟨_, _, countUpTo_pos _ _ _, rfl⟩
  have candidates : (Array.range (roles.stationCount - 1)).size = roles.stationCount - 1 :=
    Array.size_range
  have among := subperm_choose count (Array.range (roles.stationCount - 1)) later
  rw [Array.toList_range] at among
  refine ⟨below_lt _ _ (by omega), ?_, ?_, fun position selected => ?_,
    below_lt _ _ (Nat.pos_of_ne_zero time)⟩
  · rw [selects]
    exact choose_ne_nil _ _ _ wanted (by omega)
  · obtain ⟨kept, permuted, sublist⟩ := among
    rw [selects]
    exact permuted.nodup_iff.1 (sublist.nodup List.nodup_range)
  · rw [selects] at selected
    have known := List.mem_range.1 (among.subset selected)
    omega

theorem valid_of_mem_drawMany (count : Nat) (generator : StdGen) :
    ∀ one ∈ drawMany config roles count generator, one.Valid roles config.finish := by
  induction count generalizing generator with
  | zero => exact fun one member => absurd member List.not_mem_nil
  | succ count ih =>
    exact List.forall_mem_cons.2 ⟨valid_draw config roles several time generator, ih _⟩

end

theorem length_drawMany (config : GeneratorConfig) (roles : NodeRoles) (count : Nat)
    (generator : StdGen) : (drawMany config roles count generator).length = count := by
  induction count generalizing generator with
  | zero => rfl
  | succ count ih => exact congrArg Nat.succ (ih _)

end Sampler

theorem ExperimentConfig.exists_draws (config : ExperimentConfig) (settings : GeneratorConfig)
    (checked : config.check = .ok ()) (generates : config.generator? = some settings)
    (unread : config.schedule = none) (scheduleFile : FileContent) :
    ∃ draws, config.requests scheduleFile = .ok (settings.generate config.roles draws) ∧
      (∀ draw ∈ draws, draw.Valid config.roles config.finish) ∧
      (2 ≤ config.roles.stationCount → draws.length = settings.count) := by
  have finish := config.finish_of_generator? settings generates
  have time := config.finish_ne_zero checked
  have sampled : config.requests scheduleFile = .ok (settings.sample config.roles) := by
    unfold requests
    rw [unread, generates]
  rw [sampled, ← finish]
  rw [← finish] at time
  unfold GeneratorConfig.sample
  by_cases several : 2 ≤ config.roles.stationCount
  · refine ⟨_, congrArg Except.ok (if_pos ?_),
      Sampler.valid_of_mem_drawMany settings config.roles several time _ _,
      fun _ => Sampler.length_drawMany _ _ _ _⟩
    unfold GeneratorConfig.canGenerate
    simp [several, time]
  · refine ⟨[], congrArg Except.ok ?_, List.forall_mem_nil _, fun found => absurd found several⟩
    unfold GeneratorConfig.generate GeneratorConfig.canGenerate
    simp [several]

end Multicast
