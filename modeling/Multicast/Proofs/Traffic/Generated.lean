import Multicast.Experiment.Config
import Multicast.Proofs.Request
import Multicast.Proofs.Schedule.Grammar

/-!
Generated schedules. Destinations are stations other than the source, and the time of a request is cut
to the run but never empty. Main statement: whatever is drawn, a generated schedule meets the rules for
a schedule that is read, but for the rate, which is taken from the settings as it is. The settings are
not checked for it: packets of a negative rate follow each other without a gap.
-/

namespace Multicast
open Std

namespace NodeRoles

theorem isGroundStation_station (roles : NodeRoles) (position : Nat)
    (below : position < roles.stationCount) : roles.isGroundStation (roles.station position) = true := by
  have last : roles.satelliteCount + position < roles.nodeCount := Nat.add_lt_of_lt_sub' below
  unfold isGroundStation station
  rw [decide_eq_true (Nat.le_add_right _ _), decide_eq_true last]
  rfl

end NodeRoles

namespace Draw

section
variable (draw : Draw) (limit : Nat)

theorem start_lt_finish : draw.start < draw.finish limit :=
  Nat.lt_of_lt_of_le (Nat.lt_succ_self _) (Nat.le_max_right _ _)

theorem finish_le (inside : draw.midpoint < limit) : draw.finish limit ≤ limit := by
  have start : draw.start ≤ draw.midpoint := Nat.sub_le _ _
  exact Nat.max_le.2 ⟨Nat.min_le_right _ _, Nat.le_trans (Nat.succ_le_succ start) inside⟩

end

section
variable (draw : Draw) (roles : NodeRoles) (config : GeneratorConfig)
  (valid : draw.Valid roles config.finish)
include valid

theorem exists_candidate (position : Nat) (selected : position ∈ draw.selection) :
    ∃ other < roles.stationCount, other ≠ draw.source ∧
      draw.candidate roles position = roles.station other := by
  have bounded := valid.selection_lt position selected
  unfold candidate
  split
  · next before => exact ⟨position, by omega, Nat.ne_of_lt before, rfl⟩
  · next behind => exact ⟨position + 1, bounded, by omega, rfl⟩

theorem mem_destinations (node : NodeId) (member : node ∈ (draw.request config roles).destinations) :
    ∃ other < roles.stationCount, other ≠ draw.source ∧ node = roles.station other := by
  have listed : node ∈ draw.selection.map (draw.candidate roles) := by
    simpa only [request, ExtTreeSet.mem_ofList, List.contains_iff_mem] using member
  obtain ⟨position, selected, rfl⟩ := List.mem_map.1 listed
  exact exists_candidate draw roles config valid position selected

theorem hasValidEndpoints_request : (draw.request config roles).HasValidEndpoints roles := by
  rw [Request.hasValidEndpoints_iff]
  refine ⟨?_, fun own => ?_, roles.isGroundStation_station _ valid.source_lt, fun node member => ?_⟩
  · obtain ⟨position, selected⟩ := List.exists_mem_of_ne_nil _ valid.selection_ne_nil
    refine ⟨draw.candidate roles position, ?_⟩
    rw [request, ExtTreeSet.mem_ofList, List.contains_iff_mem]
    exact List.mem_map_of_mem selected
  · obtain ⟨other, _, different, same⟩ := mem_destinations draw roles config valid _ own
    exact different (Nat.add_left_cancel same).symm
  · obtain ⟨other, below, _, rfl⟩ := mem_destinations draw roles config valid node member
    exact roles.isGroundStation_station other below

theorem start_lt : (draw.request config roles).start < config.finish :=
  Nat.lt_of_lt_of_le (draw.start_lt_finish config.finish) (draw.finish_le _ valid.midpoint_lt)

theorem liesWithin_request : (draw.request config roles).LiesWithin config.finish := by
  have begins := draw.start_lt_finish config.finish
  have ends := draw.finish_le config.finish valid.midpoint_lt
  have whole : (draw.request config roles).finish ≤ draw.finish config.finish := by
    refine Nat.le_trans (Nat.min_le_left _ _) ?_
    change draw.start + (draw.finish config.finish - draw.start) ≤ draw.finish config.finish
    omega
  exact ⟨Nat.sub_pos_of_lt begins, Nat.le_trans whole ends⟩

end
end Draw

namespace GeneratorConfig
open Schedule

section
variable (settings : GeneratorConfig) (roles : NodeRoles) (draws : List Draw)

theorem numbered_generate : NumberedFromZero (settings.generate roles draws) := by
  unfold generate
  split
  · exact numberedFromZero_renumber _
  · rfl

theorem startsAscend_generate : StartsAscend (settings.generate roles draws) := by
  unfold generate
  split
  · exact startsAscend_renumber _
  · exact .nil

theorem length_generate : (settings.generate roles draws).length =
    if settings.canGenerate roles then min settings.count draws.length else 0 := by
  unfold generate
  split
  · rw [length_renumber, List.length_map, List.length_take]
  · rfl

theorem mem_generate (request : Request) (member : request ∈ settings.generate roles draws) :
    ∃ draw ∈ draws, ∃ id, request = { draw.request settings roles with id } := by
  unfold generate at member
  split at member
  · obtain ⟨unnumbered, listed, id, rfl⟩ := mem_renumber _ request member
    obtain ⟨draw, drawn, rfl⟩ := List.mem_map.1 listed
    exact ⟨draw, List.mem_of_mem_take drawn, id, rfl⟩
  · cases member

variable (valid : ∀ draw ∈ draws, draw.Valid roles settings.finish)
include valid

theorem rules_of_mem_generate (request : Request)
    (member : request ∈ settings.generate roles draws) :
    request.HasValidEndpoints roles ∧ request.start < settings.finish ∧
      request.LiesWithin settings.finish ∧ request.targetRate = settings.rate := by
  obtain ⟨draw, drawn, id, rfl⟩ := settings.mem_generate roles draws request member
  have allowed := valid draw drawn
  exact ⟨draw.hasValidEndpoints_request roles settings allowed, draw.start_lt roles settings allowed,
    draw.liesWithin_request roles settings allowed, rfl⟩

theorem valid_generate_iff (some : settings.generate roles draws ≠ []) :
    Schedule.Valid (settings.generate roles draws) roles settings.finish ↔
      settings.rate.isFinite = true ∧ 0.0 < settings.rate := by
  have each := settings.rules_of_mem_generate roles draws valid
  constructor
  · intro accepted
    obtain ⟨request, member⟩ := List.exists_mem_of_ne_nil _ some
    have rules := accepted.acceptable request member
    rw [← (each request member).2.2.2]
    exact ⟨rules.finite, rules.positive⟩
  · rintro ⟨finite, positive⟩
    refine ⟨settings.numbered_generate roles draws, settings.startsAscend_generate roles draws,
      fun request member => ?_⟩
    obtain ⟨endpoints, inTime, _, rate⟩ := each request member
    exact ⟨endpoints, rate ▸ finite, rate ▸ positive, inTime⟩

end
end GeneratorConfig

namespace ExperimentConfig
open Schedule

theorem finish_ne_zero (config : ExperimentConfig) (checked : config.check = .ok ()) :
    config.finish ≠ 0 := by
  unfold check at checked
  split at checked
  · cases checked
  · split at checked
    · cases checked
    · split at checked
      · cases checked
      · next time => exact time

theorem finish_of_generator? (config : ExperimentConfig) (settings : GeneratorConfig)
    (generates : config.generator? = some settings) : settings.finish = config.finish := by
  obtain ⟨given, _, rfl⟩ := Option.map_eq_some_iff.1 generates
  rfl

/-- Whatever is drawn under settings that pass the check, there are as many requests as were asked for,
each of them meets the rules of the reader for numbers, endpoints and times, and all of them meet the
rule for the rate exactly if the settings do. -/
theorem rules_of_generate (config : ExperimentConfig) (settings : GeneratorConfig)
    (draws : List Draw) (checked : config.check = .ok ())
    (generates : config.generator? = some settings)
    (valid : ∀ draw ∈ draws, draw.Valid config.roles config.finish) :
    (settings.generate config.roles draws).length =
      (if 2 ≤ config.roles.stationCount then min settings.count draws.length else 0) ∧
    NumberedFromZero (settings.generate config.roles draws) ∧
    StartsAscend (settings.generate config.roles draws) ∧
    (∀ request ∈ settings.generate config.roles draws,
      request.HasValidEndpoints config.roles ∧ request.start < config.finish ∧
        request.LiesWithin config.finish ∧ request.targetRate = settings.rate) ∧
    (settings.generate config.roles draws ≠ [] →
      (Schedule.Valid (settings.generate config.roles draws) config.roles config.finish ↔
        settings.rate.isFinite = true ∧ 0.0 < settings.rate)) := by
  have finish := finish_of_generator? config settings generates
  have runs : settings.canGenerate config.roles = decide (2 ≤ config.roles.stationCount) := by
    unfold GeneratorConfig.canGenerate
    rw [finish, decide_eq_true (finish_ne_zero config checked), Bool.and_true]
  rw [← finish] at valid ⊢
  refine ⟨?_, settings.numbered_generate _ _, settings.startsAscend_generate _ _,
    settings.rules_of_mem_generate _ draws valid, settings.valid_generate_iff _ draws valid⟩
  rw [settings.length_generate, runs]
  simp only [decide_eq_true_eq]

def stations (rate : Float) : ExperimentConfig := { nodeCount := 8, generator := some { rate } }

def lateAndEarly : List Draw := [⟨7, [6, 0], 0, 999999999⟩, ⟨0, [2], 5, 1⟩]

theorem valid_of_lateAndEarly (rate : Float) :
    ∀ draw ∈ lateAndEarly, draw.Valid (stations rate).roles (stations rate).finish := by
  change ∀ draw ∈ lateAndEarly, draw.Valid (.ofCounts 8 0) 1000000000
  rw [lateAndEarly, List.forall_mem_cons, List.forall_mem_singleton]
  exact ⟨⟨by decide, by decide, by decide, by decide, by decide⟩,
    ⟨by decide, by decide, by decide, by decide, by decide⟩⟩

theorem rules_of_generate_stations :
    (stations 10.0).check = .ok () ∧
      (∀ draw ∈ lateAndEarly, draw.Valid (stations 10.0).roles (stations 10.0).finish) ∧
      ∃ settings, (stations 10.0).generator? = some settings ∧
        (settings.generate (stations 10.0).roles lateAndEarly).length = 2 ∧
        Schedule.Valid (settings.generate (stations 10.0).roles lateAndEarly) (stations 10.0).roles
          (stations 10.0).finish := by
  have valid := valid_of_lateAndEarly 10.0
  have generates : (stations 10.0).generator? = some { finish := 1000000000 } := rfl
  obtain ⟨length, _, _, _, whole⟩ :=
    rules_of_generate (stations 10.0) _ lateAndEarly rfl generates valid
  have some := List.ne_nil_of_length_pos (Nat.lt_of_lt_of_eq (by decide) length.symm)
  exact ⟨rfl, valid, _, generates, length, (whole some).2 (by decide +kernel)⟩

/-- Settings with a negative rate pass the check. A request that is generated under them breaks a rule of
the reader, and its packets leave at one instant. -/
theorem not_acceptable_of_generate_negative :
    ∃ settings, (stations (-1.0)).check = .ok () ∧ (stations (-1.0)).generator? = some settings ∧
      (∀ draw ∈ lateAndEarly, draw.Valid (stations (-1.0)).roles (stations (-1.0)).finish) ∧
      ∃ request ∈ settings.generate (stations (-1.0)).roles lateAndEarly,
        ¬ request.Acceptable (stations (-1.0)).roles (stations (-1.0)).finish ∧
        request.packetGap = 0 := by
  have negative : ¬ (0.0 : Float) < -1.0 := by decide +kernel
  have gap : roundUp (12000000.0 / -1.0) = 0 := by decide +kernel
  obtain ⟨id, member⟩ := exists_mem_renumber (lateAndEarly.map fun draw =>
    draw.request { rate := -1.0, finish := 1000000000 } (.ofCounts 8 0)) _ List.mem_cons_self
  exact ⟨_, rfl, rfl, valid_of_lateAndEarly _, _, member, fun rules => negative rules.positive, gap⟩

end ExperimentConfig
end Multicast
