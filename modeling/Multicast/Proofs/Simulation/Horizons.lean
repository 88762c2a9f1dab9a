import Multicast.Proofs.Simulation.Stages

/-!
Runs that come to several horizons in turn. Main statements: they are runs to the latest horizon, and a
run that comes to a horizon has handled the events that were due, one after the other.
-/

namespace Multicast
open Std

namespace Simulation
variable {σ : Type} [SnapshotSource σ]

omit [SnapshotSource σ] in
theorem advance_advance (simulation : Simulation σ) (instant earlier : Nat)
    (before : earlier ≤ instant) :
    (simulation.advance instant).advance earlier = simulation.advance instant := by
  have clock : max (max simulation.queue.now instant) earlier = max simulation.queue.now instant :=
    Nat.max_eq_left (Nat.le_trans before (Nat.le_max_right _ _))
  unfold advance EventQueue.advanceTo
  simp only [clock]

theorem exists_idle_of_runWithin (simulation middle : Simulation σ) (horizon allowance : Nat)
    (ran : simulation.runWithin horizon allowance = (.finished, middle)) :
    ∃ last : Simulation σ, last.step horizon = none ∧ middle = last.advance horizon := by
  induction allowance generalizing simulation with
  | zero => cases ran
  | succ allowance ih =>
    rcases stepped : simulation.step horizon with _ | ⟨error | ⟨⟩, next⟩
    · rw [simulation.runWithin_of_step_eq_none _ _ stepped] at ran
      cases ran
      exact ⟨simulation, stepped, rfl⟩
    · rw [simulation.runWithin_of_step_eq_error _ _ error next stepped] at ran
      cases ran
    · rw [simulation.runWithin_of_step_eq_ok _ _ next stepped] at ran
      exact ih next ran

section
variable (simulation middle final : Simulation σ) (horizon other : Nat)
  (first : simulation.EndsAt horizon .finished middle)
  (second : middle.EndsAt other .finished final)
include first second

theorem eq_of_endsAt_earlier (before : other ≤ horizon) : final = middle := by
  obtain ⟨_, allowance, ran⟩ := first
  obtain ⟨last, idle, rfl⟩ := exists_idle_of_runWithin simulation middle horizon allowance ran
  have rests : (last.advance horizon).step other = none := by
    rw [step_advance]
    cases stepped : last.step other with
    | none => rfl
    | some outcome =>
      have again := last.step_mono other horizon before outcome stepped
      rw [idle] at again
      cases again
  have stays := (last.advance horizon).runWithin_of_step_eq_none other 0 rests
  rw [advance_advance last horizon other before] at stays
  exact (EndsAt.unique _ other _ _ _ _ second ⟨by simp, 1, stays⟩).2

theorem endsAt_max : simulation.EndsAt (max horizon other) .finished final := by
  rcases Nat.le_total horizon other with before | before
  · rw [Nat.max_eq_right before]
    obtain ⟨_, allowance, ran⟩ := first
    exact (simulation.endsAt_of_finished horizon other before allowance middle ran _ _).1 second
  · rw [Nat.max_eq_left before, eq_of_endsAt_earlier simulation middle final horizon other first second
      before]
    exact first

end

inductive Comes : Simulation σ → List Nat → Simulation σ → Prop where
  | stays (simulation : Simulation σ) : Comes simulation [] simulation
  | goesOn (simulation middle final : Simulation σ) (horizon : Nat) (later : List Nat)
    (ends : simulation.EndsAt horizon .finished middle) (rest : Comes middle later final) :
    Comes simulation (horizon :: later) final

def latest (horizon : Nat) (later : List Nat) : Nat := later.foldl max horizon

/-- A run that comes to horizons in turn is a run to the latest of them. -/
theorem endsAt_of_comes (simulation final : Simulation σ) (horizon : Nat) (later : List Nat)
    (comes : Comes simulation (horizon :: later) final) :
    simulation.EndsAt (latest horizon later) .finished final := by
  induction later generalizing simulation horizon with
  | nil =>
    cases comes with
    | goesOn _ middle _ _ _ ends rest =>
      cases rest
      exact ends
  | cons other later ih =>
    cases comes with
    | goesOn _ middle _ _ _ ends rest =>
      cases rest with
      | goesOn _ next _ _ _ goes rest =>
        exact ih simulation (max horizon other)
          (.goesOn _ next _ _ _ (endsAt_max simulation middle next horizon other ends goes) rest)

/-- The log of a run that comes to a horizon: each event that comes out until then is handled, and none
fails. -/
inductive Handles (horizon : Nat) : Simulation σ → List (Moment σ) → Simulation σ → Prop where
  | rests (simulation : Simulation σ) (idle : simulation.queue.popUntil horizon = none) :
    Handles horizon simulation [] (simulation.advance horizon)
  | event (simulation later final : Simulation σ) (key : EventKey) (event : Event)
    (queue : EventQueue) (log : List (Moment σ))
    (popped : simulation.queue.popUntil horizon = some (key, event, queue))
    (handled : (simulation.pop event queue).handle key.node event = (.ok (), later))
    (rest : Handles horizon later log final) :
    Handles horizon simulation (⟨key, event, simulation.pop event queue, .ok (), later⟩ :: log) final

theorem Handles.moment (horizon : Nat) (simulation final : Simulation σ) (log : List (Moment σ))
    (handles : Handles horizon simulation log final) (moment : Moment σ) (logged : moment ∈ log) :
    moment.before.handle moment.key.node moment.event = (.ok (), moment.after) ∧
      moment.before.driver.setting = simulation.driver.setting := by
  induction handles with
  | rests => cases logged
  | event simulation later final key event queue log popped handled rest ih =>
    have setting := (simulation.pop event queue).setting_handle key.node event
    rw [handled] at setting
    rcases List.mem_cons.1 logged with rfl | behind
    · exact ⟨handled, rfl⟩
    · obtain ⟨succeeded, set⟩ := ih behind
      exact ⟨succeeded, set.trans setting⟩

theorem exists_log_of_endsAt (simulation final : Simulation σ) (horizon : Nat)
    (ends : simulation.EndsAt horizon .finished final) : ∃ log, Handles horizon simulation log final := by
  obtain ⟨_, allowance, ran⟩ := ends
  induction allowance generalizing simulation with
  | zero => cases ran
  | succ allowance ih =>
    cases popped : simulation.queue.popUntil horizon with
    | none =>
      rw [simulation.runWithin_of_step_eq_none _ _ (by rw [step, popped])] at ran
      cases ran
      exact ⟨[], .rests simulation popped⟩
    | some entry =>
      obtain ⟨key, event, queue⟩ := entry
      have stepped := (simulation.step_of_popUntil horizon key event queue popped).1
      rcases handled : (simulation.pop event queue).handle key.node event with ⟨error | ⟨⟩, later⟩
      · rw [handled] at stepped
        rw [simulation.runWithin_of_step_eq_error _ _ error later stepped] at ran
        cases ran
      · rw [handled] at stepped
        rw [simulation.runWithin_of_step_eq_ok _ _ later stepped] at ran
        obtain ⟨log, rest⟩ := ih later ran
        exact ⟨_, .event simulation later final key event queue log popped handled rest⟩

end Simulation
end Multicast
