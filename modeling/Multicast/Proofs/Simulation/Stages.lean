import Multicast.Proofs.Simulation.Course

/-!
Runs in stages. A run that stops at a horizon has only set its clock forward, and the next event sets
the clock anew. Main statement: a run to a horizon that goes on to a later one ends as a run to the
later one at once, and a run that fails before the first horizon fails in the same way.
-/

namespace Multicast
open Std

namespace EventQueue

theorem popUntil_advanceTo (queue : EventQueue) (instant horizon : Nat) :
    (queue.advanceTo instant).popUntil horizon = queue.popUntil horizon := rfl

theorem advanceTo_advanceTo (queue : EventQueue) (instant later : Nat) (before : instant ≤ later) :
    (queue.advanceTo instant).advanceTo later = queue.advanceTo later := by
  unfold advanceTo
  dsimp only
  rw [Nat.max_assoc, Nat.max_eq_right before]

theorem popUntil_mono (queue rest : EventQueue) (horizon later : Nat) (before : horizon ≤ later)
    (key : EventKey) (event : Event) (popped : queue.popUntil horizon = some (key, event, rest)) :
    queue.popUntil later = some (key, event, rest) := by
  unfold popUntil at popped ⊢
  split at popped
  · cases popped
  · split at popped
    · cases popped
    · rename_i due
      rw [if_neg fun past => due (Nat.lt_of_le_of_lt before past)]
      exact popped

end EventQueue

namespace Simulation
variable {σ : Type} [SnapshotSource σ]

/-- The run handles its events up to the horizon, however many there are, and ends with the result:
none is left, or one has failed. -/
def EndsAt (simulation : Simulation σ) (horizon : Nat) (result : RunResult)
    (later : Simulation σ) : Prop :=
  result ≠ .exhausted ∧ ∃ allowance, simulation.runWithin horizon allowance = (result, later)

omit [SnapshotSource σ] in
def advance (simulation : Simulation σ) (instant : Nat) : Simulation σ :=
  { simulation with queue := simulation.queue.advanceTo instant }

theorem step_advance (simulation : Simulation σ) (instant horizon : Nat) :
    (simulation.advance instant).step horizon = simulation.step horizon := by
  unfold step
  rw [advance, EventQueue.popUntil_advanceTo]

theorem step_mono (simulation : Simulation σ) (horizon later : Nat) (before : horizon ≤ later)
    (outcome : Except SimulationError Unit × Simulation σ)
    (stepped : simulation.step horizon = some outcome) : simulation.step later = some outcome := by
  unfold step at stepped ⊢
  cases popped : simulation.queue.popUntil horizon with
  | none =>
    rw [popped] at stepped
    cases stepped
  | some entry =>
    rw [popped] at stepped
    rw [simulation.queue.popUntil_mono _ horizon later before _ _ popped]
    exact stepped

section
variable (simulation : Simulation σ) (horizon allowance : Nat)

theorem runWithin_of_step_eq_none (finished : simulation.step horizon = none) :
    simulation.runWithin horizon (allowance + 1) = (.finished, simulation.advance horizon) := by
  rw [runWithin, finished]
  rfl

theorem runWithin_of_step_eq_error (error : SimulationError) (failed : Simulation σ)
    (stepped : simulation.step horizon = some (.error error, failed)) :
    simulation.runWithin horizon (allowance + 1) = (.failed error, failed) := by
  rw [runWithin, stepped]

theorem runWithin_of_step_eq_ok (later : Simulation σ)
    (stepped : simulation.step horizon = some (.ok (), later)) :
    simulation.runWithin horizon (allowance + 1) = later.runWithin horizon allowance := by
  rw [runWithin, stepped]

theorem runWithin_add (more : Nat) (ended : (simulation.runWithin horizon allowance).1 ≠ .exhausted) :
    simulation.runWithin horizon (allowance + more) = simulation.runWithin horizon allowance := by
  induction allowance generalizing simulation with
  | zero => exact absurd rfl ended
  | succ allowance ih =>
    rw [Nat.add_right_comm]
    rcases stepped : simulation.step horizon with _ | ⟨error | ⟨⟩, next⟩
    · rw [simulation.runWithin_of_step_eq_none _ _ stepped,
        simulation.runWithin_of_step_eq_none _ _ stepped]
    · rw [simulation.runWithin_of_step_eq_error _ _ error next stepped,
        simulation.runWithin_of_step_eq_error _ _ error next stepped]
    · rw [simulation.runWithin_of_step_eq_ok _ _ next stepped] at ended ⊢
      rw [simulation.runWithin_of_step_eq_ok _ _ next stepped]
      exact ih next ended

end

theorem EndsAt.unique (simulation : Simulation σ) (horizon : Nat) (one other : RunResult)
    (first second : Simulation σ) (ends : simulation.EndsAt horizon one first)
    (ends' : simulation.EndsAt horizon other second) : one = other ∧ first = second := by
  obtain ⟨ended, allowance, ran⟩ := ends
  obtain ⟨ended', allowance', ran'⟩ := ends'
  have first := simulation.runWithin_add horizon allowance allowance' (by rw [ran]; exact ended)
  have second := simulation.runWithin_add horizon allowance' allowance (by rw [ran']; exact ended')
  rw [Nat.add_comm, second, ran, ran'] at first
  exact ⟨(congrArg Prod.fst first).symm, (congrArg Prod.snd first).symm⟩

theorem EndsAt.runWithin_eq (simulation : Simulation σ) (horizon : Nat) (result : RunResult)
    (later : Simulation σ) (ends : simulation.EndsAt horizon result later) (allowance : Nat)
    (ended : (simulation.runWithin horizon allowance).1 ≠ .exhausted) :
    simulation.runWithin horizon allowance = (result, later) := by
  obtain ⟨same, same'⟩ := EndsAt.unique simulation horizon _ _ _ _ ⟨ended, allowance, rfl⟩ ends
  exact Prod.ext same same'

theorem EndsAt.of_step (simulation later final : Simulation σ) (horizon : Nat) (result : RunResult)
    (stepped : simulation.step horizon = some (.ok (), later)) :
    later.EndsAt horizon result final ↔ simulation.EndsAt horizon result final := by
  constructor
  · rintro ⟨ended, allowance, ran⟩
    refine ⟨ended, allowance + 1, ?_⟩
    rw [simulation.runWithin_of_step_eq_ok _ _ later stepped, ran]
  · rintro ⟨ended, allowance, ran⟩
    cases allowance with
    | zero => exact absurd (congrArg Prod.fst ran).symm ended
    | succ allowance =>
      rw [simulation.runWithin_of_step_eq_ok _ _ later stepped] at ran
      exact ⟨ended, allowance, ran⟩

/-- A run does not notice where its clock stood, as long as it was not past the horizon. -/
theorem runWithin_advance (simulation : Simulation σ) (instant horizon : Nat)
    (before : instant ≤ horizon) (allowance : Nat) :
    (simulation.advance instant).runWithin horizon (allowance + 1) =
      simulation.runWithin horizon (allowance + 1) := by
  rw [runWithin, runWithin, step_advance]
  rcases simulation.step horizon with _ | ⟨_ | ⟨⟩, _⟩
  · simp only [advance, simulation.queue.advanceTo_advanceTo _ _ before]
  · rfl
  · rfl

theorem EndsAt.advance (simulation final : Simulation σ) (instant horizon : Nat)
    (before : instant ≤ horizon) (result : RunResult) :
    (simulation.advance instant).EndsAt horizon result final ↔
      simulation.EndsAt horizon result final := by
  refine and_congr_right fun ended => ⟨?_, ?_⟩
  · rintro ⟨_ | allowance, ran⟩
    · exact absurd (congrArg Prod.fst ran).symm ended
    · exact ⟨_, (simulation.runWithin_advance _ _ before _).symm.trans ran⟩
  · rintro ⟨_ | allowance, ran⟩
    · exact absurd (congrArg Prod.fst ran).symm ended
    · exact ⟨_, (simulation.runWithin_advance _ _ before _).trans ran⟩

section
variable (simulation : Simulation σ) (horizon later : Nat) (before : horizon ≤ later)
  (allowance : Nat)
include before

/-- What is left of a run that has come to a horizon is what is left of the run to a later one. -/
theorem endsAt_of_finished (middle : Simulation σ)
    (finished : simulation.runWithin horizon allowance = (.finished, middle)) (result : RunResult)
    (final : Simulation σ) :
    middle.EndsAt later result final ↔ simulation.EndsAt later result final := by
  induction allowance generalizing simulation with
  | zero => cases finished
  | succ allowance ih =>
    rcases stepped : simulation.step horizon with _ | ⟨error | ⟨⟩, next⟩
    · rw [simulation.runWithin_of_step_eq_none _ _ stepped] at finished
      cases finished
      exact EndsAt.advance simulation final horizon later before result
    · rw [simulation.runWithin_of_step_eq_error _ _ error next stepped] at finished
      cases finished
    · rw [simulation.runWithin_of_step_eq_ok _ _ next stepped] at finished
      exact (ih next finished).trans
        (EndsAt.of_step simulation next final later result (simulation.step_mono _ _ before _ stepped))

theorem runWithin_of_failed (error : SimulationError) (failed : Simulation σ)
    (ran : simulation.runWithin horizon allowance = (.failed error, failed)) :
    simulation.runWithin later allowance = (.failed error, failed) := by
  induction allowance generalizing simulation with
  | zero => cases ran
  | succ allowance ih =>
    rcases stepped : simulation.step horizon with _ | ⟨error' | ⟨⟩, next⟩
    · rw [simulation.runWithin_of_step_eq_none _ _ stepped] at ran
      cases ran
    · rw [simulation.runWithin_of_step_eq_error _ _ error' next stepped] at ran
      rw [simulation.runWithin_of_step_eq_error _ _ error' next
        (simulation.step_mono _ _ before _ stepped), ran]
    · rw [simulation.runWithin_of_step_eq_ok _ _ next stepped] at ran
      rw [simulation.runWithin_of_step_eq_ok _ _ next (simulation.step_mono _ _ before _ stepped)]
      exact ih next ran

end

/-- A run that comes to a horizon and goes on from there to a later one ends exactly as the run to the
later one does at once, with the same result and in the same state, if it ends at all. A run that fails
by the horizon fails by the later one with the same error and in the same state. With an allowance of
events the stages differ from the whole only in that each has one of its own. -/
theorem endsAt_in_stages (simulation : Simulation σ) (horizon later : Nat)
    (before : horizon ≤ later) :
    (∀ middle, simulation.EndsAt horizon .finished middle → ∀ result final,
      middle.EndsAt later result final ↔ simulation.EndsAt later result final) ∧
    (∀ error failed, simulation.EndsAt horizon (.failed error) failed → ∀ result final,
      simulation.EndsAt later result final ↔ result = .failed error ∧ final = failed) ∧
    (∀ middle, simulation.runUntil horizon = (.finished, middle) →
      (middle.runUntil later).1 ≠ .exhausted → (simulation.runUntil later).1 ≠ .exhausted →
        middle.runUntil later = simulation.runUntil later) ∧
    ∀ error failed, simulation.runUntil horizon = (.failed error, failed) →
      simulation.runUntil later = (.failed error, failed) := by
  have goesOn (middle : Simulation σ) (comes : simulation.EndsAt horizon .finished middle)
      (result : RunResult) (final : Simulation σ) :
      middle.EndsAt later result final ↔ simulation.EndsAt later result final := by
    obtain ⟨_, allowance, ran⟩ := comes
    exact simulation.endsAt_of_finished horizon later before allowance middle ran result final
  refine ⟨goesOn, ?_, ?_, ?_⟩
  · rintro error failed ⟨_, allowance, ran⟩ result final
    have fails : simulation.EndsAt later (.failed error) failed :=
      ⟨by simp, allowance, simulation.runWithin_of_failed horizon later before allowance _ _ ran⟩
    constructor
    · exact fun ends => EndsAt.unique simulation later _ _ _ _ ends fails
    · rintro ⟨rfl, rfl⟩
      exact fails
  · intro middle ran ended ended'
    have comes : simulation.EndsAt horizon .finished middle := ⟨by simp, _, ran⟩
    have ends := (goesOn middle comes _ _).1 ⟨ended, _, rfl⟩
    exact (ends.runWithin_eq simulation later _ _ _ ended').symm
  · exact fun error failed ran =>
      simulation.runWithin_of_failed horizon later before _ error failed ran

theorem runWithin_of_logUntil (simulation : Simulation σ) (horizon count : Nat)
    (flawless : (simulation.logUntil horizon count).1.all (·.result.isOk) = true)
    (idle : (simulation.logUntil horizon count).2.queue.events.toList.head?.all
      (horizon < ·.1.time) = true) :
    simulation.runWithin horizon (count + 1) =
      (.finished, (simulation.logUntil horizon count).2.advance horizon) := by
  have rests (simulation : Simulation σ) (idle : simulation.queue.events.toList.head?.all
      (horizon < ·.1.time) = true) : simulation.step horizon = none := by
    unfold step EventQueue.popUntil
    rw [EventQueue.next?_eq_head?]
    cases head : simulation.queue.events.toList.head? with
    | none => rfl
    | some entry =>
      rw [head] at idle
      simp only [if_pos (of_decide_eq_true idle)]
  induction count generalizing simulation with
  | zero => exact simulation.runWithin_of_step_eq_none horizon 0 (rests simulation idle)
  | succ count ih =>
    cases head : simulation.queue.events.toList.head? with
    | none =>
      simp only [logUntil, head]
      exact simulation.runWithin_of_step_eq_none horizon _ (rests simulation (by rw [head]; rfl))
    | some entry =>
      obtain ⟨key, event⟩ := entry
      by_cases due : horizon < key.time
      · simp only [logUntil, head, if_pos due]
        refine simulation.runWithin_of_step_eq_none horizon _ (rests simulation ?_)
        rw [head]
        exact decide_eq_true due
      · have popped := simulation.queue.popUntil_of_head? horizon key event head
        rw [if_neg due] at popped
        have stepped := (simulation.step_of_popUntil horizon key event _ popped).1
        rcases handled : (simulation.pop event _).handle key.node event with ⟨result, after⟩
        rw [handled] at stepped
        simp only [logUntil, head, if_neg due, handled, List.all_cons, Bool.and_eq_true]
          at flawless idle ⊢
        obtain ⟨ok, flawless⟩ := flawless
        rcases result with error | ⟨⟩
        · cases ok
        · rw [simulation.runWithin_of_step_eq_ok horizon _ after stepped]
          exact ih after flawless idle

theorem exists_runWithin_of_logUntil (simulation : Simulation σ) (horizon count : Nat)
    (error : SimulationError)
    (fails : ((simulation.logUntil horizon count).1.map Moment.result).find? (!·.isOk) =
      some (.error error)) :
    ∃ failed, simulation.runWithin horizon count = (.failed error, failed) := by
  induction count generalizing simulation with
  | zero => cases fails
  | succ count ih =>
    cases head : simulation.queue.events.toList.head? with
    | none =>
      simp only [logUntil, head] at fails
      cases fails
    | some entry =>
      obtain ⟨key, event⟩ := entry
      by_cases due : horizon < key.time
      · simp only [logUntil, head, if_pos due] at fails
        cases fails
      · have popped := simulation.queue.popUntil_of_head? horizon key event head
        rw [if_neg due] at popped
        have stepped := (simulation.step_of_popUntil horizon key event _ popped).1
        rcases handled : (simulation.pop event _).handle key.node event with ⟨result, after⟩
        rw [handled] at stepped
        simp only [logUntil, head, if_neg due, handled, List.map_cons] at fails
        rcases result with other | ⟨⟩
        · cases fails
          exact ⟨after, simulation.runWithin_of_step_eq_error horizon _ error after stepped⟩
        · rw [simulation.runWithin_of_step_eq_ok horizon _ after stepped]
          exact ih after fails

theorem endsAt_in_stages_diamond :
    ∃ middle final, diamondRun.EndsAt 12 .finished middle ∧ middle.now = 12 ∧
      middle.stats.refreshes = 2 ∧ middle.pending = 2 ∧
      middle.EndsAt 30 .finished final ∧ diamondRun.EndsAt 30 .finished final ∧
      final.now = 30 ∧ final.stats.packetsDelivered = 2 := by
  have comes := diamondRun.runWithin_of_logUntil 12 4 (by decide +kernel) (by decide +kernel)
  have ends := diamondRun.runWithin_of_logUntil 30 6 (by decide +kernel) (by decide +kernel)
  have middle : diamondRun.EndsAt 12 .finished _ := ⟨by simp, 5, comes⟩
  have final : diamondRun.EndsAt 30 .finished _ := ⟨by simp, 7, ends⟩
  have stages := (diamondRun.endsAt_in_stages 12 30 (by decide)).1 _ middle
  exact ⟨_, _, middle, by decide +kernel, by decide +kernel, by decide +kernel,
    (stages _ _).2 final, final, by decide +kernel, by decide +kernel⟩

end Simulation
end Multicast
