import Multicast.Proofs.Event.Order
import Mathlib.Data.List.Sort

/-!
Sequences of calls of the event queue. A ledger keeps the time on the clock, the events that the calls
ask for, each with the time and the node it is asked for, and what has come out. Main statement: whatever
calls are made, and at whatever times, what was asked for is what came out and what waits, each once under
its own key; what comes out is the least of what waits; and what comes out of one draining comes in the
order of the keys.
-/

namespace Multicast
open Std

/-- The place of an event in its instant: timers, then arrivals, then bursts. -/
def Event.stage : Event → Nat
  | .timer _ => 0
  | .arrival _ _ => 1
  | .burst _ => 2

theorem Event.rank_priority (event : Event) : event.priority.rank = event.stage + 1 := by
  cases event <;> rfl

namespace EventQueue

def dueBy (queue : EventQueue) (horizon : Nat) : List (EventKey × Event) :=
  queue.waiting.filter fun entry => entry.1.time ≤ horizon

def dueAfter (queue : EventQueue) (horizon : Nat) : List (EventKey × Event) :=
  queue.waiting.filter fun entry => horizon < entry.1.time

theorem dueBy_append_dueAfter (queue : EventQueue) (horizon : Nat) :
    queue.dueBy horizon ++ queue.dueAfter horizon = queue.waiting := by
  apply queue.eq_waiting_of_perm
  · refine List.pairwise_append.2 ⟨queue.sorted_waiting.sublist List.filter_sublist,
      queue.sorted_waiting.sublist List.filter_sublist, ?_⟩
    intro one early other late
    have due : one.1.time ≤ horizon := of_decide_eq_true (List.mem_filter.1 early).2
    have after : horizon < other.1.time := of_decide_eq_true (List.mem_filter.1 late).2
    apply (EventKey.compare_eq_lt one.1 other.1).2
    exact .inl (Nat.lt_of_le_of_lt due after)
  · have split := List.filter_append_perm (fun entry => decide (entry.1.time ≤ horizon)) queue.waiting
    have rest : (queue.waiting.filter fun entry => !decide (entry.1.time ≤ horizon)) =
        queue.dueAfter horizon := by
      apply List.filter_congr
      intro entry _
      simp only [← decide_not, Nat.not_le]
    rwa [rest] at split

theorem dueBy_of_popUntil_none (queue : EventQueue) (horizon : Nat)
    (nothing : queue.popUntil horizon = none) :
    queue.dueBy horizon = [] ∧ queue.dueAfter horizon = queue.waiting := by
  have after := (queue.popUntil_eq_none horizon).1 nothing
  constructor
  · apply List.filter_eq_nil_iff.2
    intro entry waits
    have late := after entry waits
    simp only [decide_eq_true_eq]
    omega
  · apply List.filter_eq_self.2
    intro entry waits
    exact decide_eq_true (after entry waits)

section
variable (queue rest : EventQueue) (horizon : Nat) (key : EventKey) (event : Event)
  (popped : queue.popUntil horizon = some (key, event, rest))
include popped

theorem dueBy_of_popUntil :
    queue.dueBy horizon = (key, event) :: rest.dueBy horizon ∧
      queue.dueAfter horizon = rest.dueAfter horizon := by
  have due := (queue.due_of_popUntil rest horizon key event popped).2
  unfold dueBy dueAfter
  rw [queue.waiting_of_popUntil rest horizon key event popped]
  constructor
  · exact List.filter_cons_of_pos (decide_eq_true due)
  · apply List.filter_cons_of_neg
    simp only [decide_eq_true_eq]
    omega

theorem before_of_popUntil (other : EventKey × Event) (waits : other ∈ queue.waiting)
    (different : other.1 ≠ key) : key.Before other.1 := by
  rw [queue.waiting_of_popUntil rest horizon key event popped] at waits
  cases List.mem_cons.1 waits with
  | inl own =>
    rw [own] at different
    exact absurd rfl different
  | inr stays =>
    exact (key.compare_eq_lt other.1).1
      (queue.lt_of_popUntil rest horizon key event popped other stays)

end

theorem exists_popUntil_iff (queue : EventQueue) (horizon : Nat) (key : EventKey) (event : Event) :
    (∃ rest, queue.popUntil horizon = some (key, event, rest)) ↔
      (key, event) ∈ queue.waiting ∧ key.time ≤ horizon ∧
        ∀ other ∈ queue.waiting, other.1 ≠ key → key.Before other.1 := by
  constructor
  · rintro ⟨rest, popped⟩
    have waiting := queue.waiting_of_popUntil rest horizon key event popped
    refine ⟨?_, (queue.due_of_popUntil rest horizon key event popped).2,
      queue.before_of_popUntil rest horizon key event popped⟩
    rw [waiting]
    exact List.mem_cons_self
  · rintro ⟨waits, due, least⟩
    cases popped : queue.popUntil horizon with
    | none =>
      have late := (queue.popUntil_eq_none horizon).1 popped (key, event) waits
      exact absurd due (Nat.not_le_of_lt late)
    | some out =>
      obtain ⟨first, event', rest⟩ := out
      have waits' : (first, event') ∈ queue.waiting := by
        rw [queue.waiting_of_popUntil rest horizon first event' popped]
        exact List.mem_cons_self
      by_cases same : first = key
      · subst same
        have held := (queue.mem_waiting _).1 waits
        have held' := (queue.mem_waiting _).1 waits'
        cases Option.some.inj (held.symm.trans held')
        exact ⟨rest, rfl⟩
      · have one := (key.compare_eq_lt first).2 (least _ waits' same)
        have other := (first.compare_eq_lt key).2 (queue.before_of_popUntil rest horizon first event'
          popped (key, event) waits (Ne.symm same))
        cases (OrientedCmp.gt_of_lt one).symm.trans other

theorem waiting_setTimer (queue : EventQueue)
    (numbered : ∀ entry ∈ queue.waiting, entry.1.sequence ≤ queue.scheduled) (timer : Timer)
    (delay : Nat) : (queue.setTimer timer delay).waiting.Perm
      ((queue.nextKey none (queue.now + delay) (.timer timer), .timer timer) :: queue.waiting) :=
  { queue with timersSet := queue.timersSet + 1 }.waiting_schedule numbered none (queue.now + delay)
    (.timer timer)

end EventQueue

inductive QueueCall where
  | schedule (node : Option NodeId) (time : Nat) (event : Event)
  | setTimer (timer : Timer) (delay : Nat)
  | pop (horizon : Nat)
  | advance (time : Nat)
deriving DecidableEq

/-- A queue with the time on the clock, with what was scheduled, each event under the key that it is
asked for, and with what has come out. -/
structure Ledger where
  queue : EventQueue
  clock : Nat
  scheduled : List (EventKey × Event)
  popped : List (EventKey × Event)

namespace Ledger

def empty : Ledger := ⟨.empty, 0, [], []⟩

/-- The key of an event that is asked for next: the time and the node are the ones it is asked for. -/
def keyFor (ledger : Ledger) (node : Option NodeId) (time : Nat) (event : Event) : EventKey :=
  ⟨time, event.priority, node, ledger.scheduled.length + 1⟩

def record (ledger : Ledger) (node : Option NodeId) (time : Nat) (event : Event)
    (queue : EventQueue) : Ledger :=
  { ledger with
    queue := queue
    scheduled := ledger.scheduled ++ [(ledger.keyFor node time event, event)] }

def pop (ledger : Ledger) (horizon : Nat) : Ledger :=
  match ledger.queue.popUntil horizon with
  | none => ledger
  | some (key, event, rest) =>
    { ledger with queue := rest, clock := key.time, popped := ledger.popped ++ [(key, event)] }

def call (ledger : Ledger) : QueueCall → Ledger
  | .schedule node time event =>
    ledger.record node time event (ledger.queue.schedule node time event)
  | .setTimer timer delay =>
    ledger.record none (ledger.clock + delay) (.timer timer) (ledger.queue.setTimer timer delay)
  | .pop horizon => ledger.pop horizon
  | .advance time =>
    { ledger with queue := ledger.queue.advanceTo time, clock := max ledger.clock time }

def afterCalls (calls : List QueueCall) : Ledger := calls.foldl call empty

theorem afterCalls_append (calls more : List QueueCall) :
    afterCalls (calls ++ more) = more.foldl call (afterCalls calls) := by
  unfold afterCalls
  rw [List.foldl_append]

/-- The clock of the queue is right. What was scheduled is numbered in that order, has come out or
waits, and has the rank of its event. -/
structure Kept (ledger : Ledger) : Prop where
  clock : ledger.queue.now = ledger.clock
  perm : ledger.scheduled.Perm (ledger.popped ++ ledger.queue.waiting)
  numbered : ledger.scheduled.map (fun entry => entry.1.sequence) =
    List.range' 1 ledger.scheduled.length
  counted : ledger.queue.scheduled = ledger.scheduled.length
  ranked : ∀ entry ∈ ledger.scheduled, entry.1.priority = entry.2.priority

section
variable (ledger : Ledger) (kept : ledger.Kept)
include kept

theorem Kept.scheduled_of_waits (entry : EventKey × Event) (waits : entry ∈ ledger.queue.waiting) :
    entry ∈ ledger.scheduled :=
  kept.perm.mem_iff.2 (List.mem_append_right _ waits)

theorem Kept.sequence_le (entry : EventKey × Event) (waits : entry ∈ ledger.queue.waiting) :
    entry.1.sequence ≤ ledger.queue.scheduled := by
  have number : entry.1.sequence ∈ ledger.scheduled.map (fun entry => entry.1.sequence) :=
    List.mem_map_of_mem (kept.scheduled_of_waits ledger entry waits)
  rw [kept.numbered, List.mem_range'_1] at number
  rw [kept.counted]
  omega

theorem Kept.nextKey_eq (node : Option NodeId) (time : Nat) (event : Event) :
    ledger.queue.nextKey node time event = ledger.keyFor node time event := by
  unfold EventQueue.nextKey keyFor
  rw [kept.counted]

theorem kept_record (node : Option NodeId) (time : Nat) (event : Event) (queue : EventQueue)
    (now : queue.now = ledger.queue.now) (counted : queue.scheduled = ledger.queue.scheduled + 1)
    (waiting : queue.waiting.Perm ((ledger.keyFor node time event, event) :: ledger.queue.waiting)) :
    (ledger.record node time event queue).Kept where
  clock := now.trans kept.clock
  perm := by
    have added := kept.perm.append_right [(ledger.keyFor node time event, event)]
    rw [List.append_assoc] at added
    apply added.trans
    apply List.Perm.append_left
    exact (List.perm_append_singleton _ _).trans waiting.symm
  numbered := by
    unfold record keyFor
    dsimp only
    rw [List.map_append, kept.numbered, List.length_append, List.length_singleton, List.range'_concat,
      List.map_singleton, Nat.one_mul, Nat.add_comm 1]
  counted := by
    unfold record
    dsimp only
    rw [counted, kept.counted, List.length_append, List.length_singleton]
  ranked entry listed := by
    cases List.mem_append.1 listed with
    | inl before => exact kept.ranked entry before
    | inr own =>
      rw [List.mem_singleton.1 own]
      rfl

theorem kept_pop (horizon : Nat) : (ledger.pop horizon).Kept := by
  unfold pop
  split
  · exact kept
  · rename_i key event rest popped
    have out := ledger.queue.popped_of_popUntil rest horizon key event popped
    constructor
    case clock => exact out.now
    case perm =>
      rw [List.append_assoc]
      exact kept.perm.trans (out.waiting.append_left _)
    case numbered => exact kept.numbered
    case counted => exact out.scheduled.trans kept.counted
    case ranked => exact kept.ranked

theorem kept_call (call : QueueCall) : (ledger.call call).Kept := by
  cases call with
  | schedule node time event =>
    have waiting := ledger.queue.waiting_schedule (kept.sequence_le ledger) node time event
    rw [kept.nextKey_eq ledger] at waiting
    exact ledger.kept_record kept node time event _ rfl rfl waiting
  | setTimer timer delay =>
    have waiting := ledger.queue.waiting_setTimer (kept.sequence_le ledger) timer delay
    rw [kept.nextKey_eq ledger, kept.clock] at waiting
    exact ledger.kept_record kept none (ledger.clock + delay) (.timer timer) _ rfl rfl waiting
  | pop horizon => exact ledger.kept_pop kept horizon
  | advance time =>
    have clock : max ledger.queue.now time = max ledger.clock time := by rw [kept.clock]
    exact ⟨clock, kept.perm, kept.numbered, kept.counted, kept.ranked⟩

end

theorem kept_foldl (ledger : Ledger) (kept : ledger.Kept) (calls : List QueueCall) :
    (calls.foldl call ledger).Kept := by
  induction calls generalizing ledger with
  | nil => exact kept
  | cons call rest ih => exact ih (ledger.call call) (ledger.kept_call kept call)

theorem kept_empty : empty.Kept := by
  constructor <;> simp [empty, EventQueue.empty, EventQueue.waiting]

theorem kept_afterCalls (calls : List QueueCall) : (afterCalls calls).Kept :=
  kept_foldl empty kept_empty calls

/-! ## Draining -/

theorem foldl_pop (ledger : Ledger) (horizon count : Nat) :
    let later := (List.replicate count (QueueCall.pop horizon)).foldl call ledger
    later.popped = ledger.popped ++ (ledger.queue.dueBy horizon).take count ∧
      later.queue.waiting =
        (ledger.queue.dueBy horizon).drop count ++ ledger.queue.dueAfter horizon := by
  dsimp only
  induction count generalizing ledger with
  | zero =>
    constructor
    · simp
    · exact (ledger.queue.dueBy_append_dueAfter horizon).symm
  | succ count ih =>
    rw [List.replicate_succ, List.foldl_cons]
    cases popped : ledger.queue.popUntil horizon with
    | none =>
      have same : ledger.call (.pop horizon) = ledger := by
        simp only [call, pop, popped]
      have nothing := (ledger.queue.dueBy_of_popUntil_none horizon popped).1
      rw [same]
      have later := ih ledger
      rw [nothing] at later ⊢
      simpa using later
    | some out =>
      obtain ⟨key, event, rest⟩ := out
      have next : ledger.call (.pop horizon) =
          { ledger with
            queue := rest, clock := key.time, popped := ledger.popped ++ [(key, event)] } := by
        simp only [call, pop, popped]
      obtain ⟨by_, after⟩ := ledger.queue.dueBy_of_popUntil rest horizon key event popped
      obtain ⟨came, left⟩ := ih (ledger.call (.pop horizon))
      rw [came, left, next, by_, after]
      simp

/-- One event comes out ahead of another for one of these reasons: its key is less, so it is not later,
at one instant not of a later stage, and among events of one instant, stage and node it was scheduled
first. -/
structure Ahead (scheduled : List (EventKey × Event)) (one other : EventKey × Event) : Prop where
  before : one.1.Before other.1
  staged : one.1.time = other.1.time → one.2.stage ≤ other.2.stage
  inTurn : one.1.time = other.1.time → one.2.stage = other.2.stage → one.1.node = other.1.node →
    [one, other].Sublist scheduled

section
variable (ledger : Ledger) (kept : ledger.Kept)
include kept

theorem Kept.ascending :
    ledger.scheduled.Pairwise fun one other => one.1.sequence < other.1.sequence := by
  apply List.pairwise_map.1
  rw [kept.numbered]
  exact List.pairwise_lt_range'

theorem Kept.nodup_keys : (ledger.scheduled.map Prod.fst).Nodup := by
  apply List.pairwise_map.2
  apply (kept.ascending ledger).imp
  intro one other earlier same
  rw [same] at earlier
  exact Nat.lt_irrefl _ earlier

theorem Kept.sublist (one other : EventKey × Event) (listed : one ∈ ledger.scheduled)
    (listed' : other ∈ ledger.scheduled) (earlier : one.1.sequence < other.1.sequence) :
    [one, other].Sublist ledger.scheduled := by
  have ascending := kept.ascending ledger
  generalize ledger.scheduled = scheduled at listed listed' ascending
  induction scheduled with
  | nil => cases listed
  | cons first rest ih =>
    obtain ⟨least, ascending⟩ := List.pairwise_cons.1 ascending
    cases List.mem_cons.1 listed' with
    | inl own' =>
      -- The first of the list has the lowest number, so it is not the other.
      cases List.mem_cons.1 listed with
      | inl own =>
        rw [own, own'] at earlier
        exact absurd earlier (Nat.lt_irrefl _)
      | inr listed =>
        have lower := least one listed
        rw [own'] at earlier
        exact absurd earlier (Nat.lt_asymm lower)
    | inr listed' =>
      cases List.mem_cons.1 listed with
      | inl own =>
        rw [own]
        exact (List.singleton_sublist.2 listed').cons_cons first
      | inr listed => exact (ih listed listed' ascending).cons first

theorem Kept.ahead (one other : EventKey × Event) (waits : one ∈ ledger.queue.waiting)
    (waits' : other ∈ ledger.queue.waiting) (less : compare one.1 other.1 = .lt) :
    Ahead ledger.scheduled one other := by
  have listed := kept.scheduled_of_waits ledger one waits
  have listed' := kept.scheduled_of_waits ledger other waits'
  have rank : one.1.priority.rank = one.2.stage + 1 := by
    rw [kept.ranked one listed, Event.rank_priority]
  have rank' : other.1.priority.rank = other.2.stage + 1 := by
    rw [kept.ranked other listed', Event.rank_priority]
  constructor
  case before => exact (EventKey.compare_eq_lt one.1 other.1).1 less
  case staged =>
    intro instant
    have lower := (EventKey.time_le_of_lt one.1 other.1 less).2 instant
    omega
  case inTurn =>
    intro instant stage node
    have ranks : one.1.priority = other.1.priority := by
      rw [kept.ranked one listed, kept.ranked other listed']
      generalize one.2 = event at stage
      generalize other.2 = event' at stage
      cases event <;> cases event' <;> first | rfl | cases stage
    exact kept.sublist ledger one other listed listed'
      (EventKey.sequence_lt_of_lt one.1 other.1 less instant ranks node)

theorem Kept.pairwise_ahead : ledger.queue.waiting.Pairwise (Ahead ledger.scheduled) :=
  ledger.queue.sorted_waiting.imp_of_mem fun waits waits' less =>
    kept.ahead ledger _ _ waits waits' less

end

/-- Whatever calls are made: the clock is right, and an event that is asked for next is filed under the
time and the node it is asked for. What was scheduled is what came out and what waits, each event once and
under a key of its own, numbered as scheduled. What comes out by a horizon is the least of what waits
if that is due, and nothing does otherwise, which changes nothing. Taking out events by a horizon gives
those that are due, and in their order. -/
theorem accounts_afterCalls (calls : List QueueCall) :
    (afterCalls calls).queue.now = (afterCalls calls).clock ∧
    (∀ node time event, (afterCalls calls).queue.nextKey node time event =
      (afterCalls calls).keyFor node time event) ∧
    (afterCalls calls).scheduled.Perm
      ((afterCalls calls).popped ++ (afterCalls calls).queue.waiting) ∧
    (afterCalls calls).scheduled.map (fun entry => entry.1.sequence) =
      List.range' 1 (afterCalls calls).scheduled.length ∧
    ((afterCalls calls).scheduled.map Prod.fst).Nodup ∧
    (∀ horizon,
      ((afterCalls calls).queue.popUntil horizon = none ↔
        ∀ entry ∈ (afterCalls calls).queue.waiting, horizon < entry.1.time) ∧
      ((afterCalls calls).queue.popUntil horizon = none →
        afterCalls (calls ++ [.pop horizon]) = afterCalls calls) ∧
      (∀ key event, (∃ rest, (afterCalls calls).queue.popUntil horizon = some (key, event, rest)) ↔
        (key, event) ∈ (afterCalls calls).queue.waiting ∧ key.time ≤ horizon ∧
          ∀ other ∈ (afterCalls calls).queue.waiting, other.1 ≠ key → key.Before other.1) ∧
      ∀ key event rest, (afterCalls calls).queue.popUntil horizon = some (key, event, rest) →
        (afterCalls calls).queue.waiting = (key, event) :: rest.waiting ∧ rest.now = key.time) ∧
    ∀ horizon count,
      (afterCalls (calls ++ List.replicate count (.pop horizon))).popped =
        (afterCalls calls).popped ++ ((afterCalls calls).queue.dueBy horizon).take count ∧
      (afterCalls (calls ++ List.replicate count (.pop horizon))).queue.waiting =
        ((afterCalls calls).queue.dueBy horizon).drop count ++
          (afterCalls calls).queue.dueAfter horizon ∧
      ((afterCalls calls).queue.dueBy horizon).Pairwise (Ahead (afterCalls calls).scheduled) := by
  have kept := kept_afterCalls calls
  generalize same : afterCalls calls = ledger at kept
  refine ⟨kept.clock, kept.nextKey_eq ledger, kept.perm, kept.numbered, kept.nodup_keys ledger,
    fun horizon => ?_, fun horizon count => ?_⟩
  · refine ⟨ledger.queue.popUntil_eq_none horizon, ?_, ledger.queue.exists_popUntil_iff horizon, ?_⟩
    · intro nothing
      rw [afterCalls_append, same]
      simp only [List.foldl_cons, List.foldl_nil, call, pop, nothing]
    · intro key event rest popped
      exact ⟨ledger.queue.waiting_of_popUntil rest horizon key event popped,
        (ledger.queue.popped_of_popUntil rest horizon key event popped).now⟩
  · rw [afterCalls_append, same]
    obtain ⟨came, left⟩ := ledger.foldl_pop horizon count
    exact ⟨came, left, (kept.pairwise_ahead ledger).sublist List.filter_sublist⟩

end Ledger
end Multicast
