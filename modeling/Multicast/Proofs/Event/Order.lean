import Multicast.Proofs.Event.Copies
import Mathlib.Data.List.Perm.Basic

/-!
The order of events. Main statements: an event that comes out of the queue is not after any event that
stays, and within an instant it is not of a lower rank; what is booked is added to what waits, under
keys that no event has had before, and its place among what waits does not depend on those keys.
-/

namespace Multicast
open Std

namespace EventKey

def NodeBefore : Option NodeId → Option NodeId → Prop
  | none, other => other ≠ none
  | some _, none => False
  | some one, some other => one < other

theorem compare_node_eq_lt (one other : Option NodeId) :
    compare one other = .lt ↔ NodeBefore one other := by
  cases one with
  | none =>
    cases other with
    | none => exact iff_of_false (by decide) fun before => before rfl
    | some other => exact iff_of_true rfl (Option.some_ne_none other)
  | some one =>
    cases other with
    | none => exact iff_of_false (by simp [compare]) id
    | some other => exact Nat.compare_eq_lt

/-- One key comes before another by its time, at one time by its rank, then by its node, and then by
its number. -/
def Before (one other : EventKey) : Prop :=
  one.time < other.time ∨ one.time = other.time ∧
    (one.priority.rank < other.priority.rank ∨ one.priority.rank = other.priority.rank ∧
      (NodeBefore one.node other.node ∨ one.node = other.node ∧ one.sequence < other.sequence))

theorem compare_eq_lt (one other : EventKey) : compare one other = .lt ↔ one.Before other := by
  have parts : compare one other = (compare one.time other.time).then
      ((compare one.priority.rank other.priority.rank).then
        ((compare one.node other.node).then (compare one.sequence other.sequence))) := rfl
  rw [parts]
  simp only [Ordering.then_eq_lt, Nat.compare_eq_lt, compare_node_eq_lt, Std.compare_eq_iff_eq,
    Before]

theorem time_le_of_lt (one other : EventKey) (before : compare one other = .lt) :
    one.time ≤ other.time ∧ (one.time = other.time → one.priority.rank ≤ other.priority.rank) := by
  have parts := (compare_eq_lt one other).1 before
  unfold Before at parts
  omega

theorem compare_eq (one other : EventKey) :
    compare one other = (compare (one.time, one.priority.rank, one.node)
      (other.time, other.priority.rank, other.node)).then (compare one.sequence other.sequence) := by
  have parts : compare (one.time, one.priority.rank, one.node)
      (other.time, other.priority.rank, other.node) = (compare one.time other.time).then
        ((compare one.priority.rank other.priority.rank).then (compare one.node other.node)) := rfl
  rw [parts, Ordering.then_assoc, Ordering.then_assoc]
  rfl

theorem not_nodeBefore_self (node : Option NodeId) : ¬NodeBefore node node := by
  rw [← compare_node_eq_lt, compare_self]
  simp

theorem sequence_lt_of_lt (one other : EventKey) (before : compare one other = .lt)
    (time : one.time = other.time) (priority : one.priority = other.priority)
    (node : one.node = other.node) : one.sequence < other.sequence := by
  have parts := (compare_eq_lt one other).1 before
  unfold Before at parts
  rw [time, priority, node] at parts
  simpa [not_nodeBefore_self] using parts

end EventKey

/-- An event that is asked for: the node it is for, when, and what it is. -/
structure Booking where
  node : Option NodeId
  time : Nat
  event : Event
deriving DecidableEq

def Booking.ofEntry (entry : EventKey × Event) : Booking := ⟨entry.1.node, entry.1.time, entry.2⟩

def Booking.entry (number : Nat) (booking : Booking) : EventKey × Event :=
  (⟨booking.time, booking.event.priority, booking.node, number⟩, booking.event)

/-! ## The places of bookings

An event that is scheduled comes after all that do not come after it, whatever their numbers are. So
events keep their order if others are left out.
-/

namespace Booking

/-- Whether an event that waits comes out before one that is scheduled now. -/
def precedes (booking later : Booking) : Bool :=
  (compare (booking.time, booking.event.priority.rank, booking.node)
    (later.time, later.event.priority.rank, later.node)).isLE

theorem precedes_trans (one other third : Booking) (first : one.precedes other = true)
    (second : other.precedes third = true) : one.precedes third = true :=
  TransCmp.isLE_trans first second

theorem precedes_of_not (one other : Booking) (not : one.precedes other = false) :
    other.precedes one = true := by
  have after := OrientedCmp.lt_of_not_isLE (by simpa [precedes] using not)
  unfold precedes
  rw [after]
  rfl

abbrev Sorted (bookings : List Booking) : Prop :=
  bookings.Pairwise fun one other => one.precedes other = true

def place : List Booking → Booking → List Booking
  | [], booking => [booking]
  | first :: rest, booking =>
    if first.precedes booking then first :: place rest booking else booking :: first :: rest

theorem place_append (before after : List Booking) (booking : Booking)
    (precede : ∀ other ∈ before, other.precedes booking = true)
    (follow : ∀ other ∈ after, other.precedes booking = false) :
    place (before ++ after) booking = before ++ booking :: after := by
  induction before with
  | nil =>
    cases after with
    | nil => rfl
    | cons first rest => simp [place, follow first List.mem_cons_self]
  | cons first rest ih =>
    rw [List.cons_append, place, if_pos (precede first List.mem_cons_self),
      ih fun other listed => precede other (List.mem_cons_of_mem _ listed), List.cons_append]

theorem perm_place (bookings : List Booking) (booking : Booking) :
    (place bookings booking).Perm (booking :: bookings) := by
  induction bookings with
  | nil => exact .refl _
  | cons first rest ih =>
    unfold place
    split
    · exact (ih.cons first).trans (.swap booking first rest)
    · exact .refl _

section
variable (bookings : List Booking) (sorted : Sorted bookings)
include sorted

theorem sorted_place (booking : Booking) : Sorted (place bookings booking) := by
  induction bookings with
  | nil => exact List.pairwise_singleton _ _
  | cons first rest ih =>
    obtain ⟨before, sorted⟩ := List.pairwise_cons.1 sorted
    unfold place
    split
    · rename_i precedes
      refine List.pairwise_cons.2 ⟨fun other listed => ?_, ih sorted⟩
      rcases List.mem_cons.1 ((perm_place rest booking).mem_iff.1 listed) with rfl | listed
      · exact precedes
      · exact before other listed
    · rename_i follows
      have after := first.precedes_of_not booking (by simpa using follows)
      refine List.pairwise_cons.2 ⟨fun other listed => ?_, List.pairwise_cons.2 ⟨before, sorted⟩⟩
      rcases List.mem_cons.1 listed with rfl | listed
      · exact after
      · exact precedes_trans _ _ _ after (before other listed)

/-- The place of a booking among some of those that wait does not depend on the others. -/
theorem filter_place (booking : Booking) (about : Booking → Bool) :
    (place bookings booking).filter about =
      if about booking then place (bookings.filter about) booking else bookings.filter about := by
  induction bookings with
  | nil => cases own : about booking <;> simp [place, own]
  | cons first rest ih =>
    obtain ⟨before, sorted⟩ := List.pairwise_cons.1 sorted
    cases follows : first.precedes booking with
    | true =>
      rw [place, if_pos follows]
      cases kept : about first with
      | true =>
        rw [List.filter_cons_of_pos kept, List.filter_cons_of_pos kept, ih sorted, place,
          if_pos follows]
        split <;> rfl
      | false =>
        rw [List.filter_cons_of_neg (by simp [kept]), List.filter_cons_of_neg (by simp [kept]),
          ih sorted]
    | false =>
      rw [place, if_neg (by simp [follows])]
      cases own : about booking with
      | false => rw [List.filter_cons_of_neg (by simp [own]), if_neg (by decide)]
      | true =>
        rw [List.filter_cons_of_pos own, if_pos rfl]
        -- What waits is sorted, so the booking precedes all that the filter leaves as well.
        refine (place_append [] _ booking (by simp) fun other listed => ?_).symm
        rcases List.mem_cons.1 (List.mem_of_mem_filter listed) with rfl | listed
        · exact follows
        · by_contra precedes
          have early := precedes_trans _ _ _ (before other listed) (by simpa using precedes)
          exact absurd (follows.symm.trans early) (by decide)

theorem filter_foldl_place (more : List Booking) (about : Booking → Bool) :
    (more.foldl place bookings).filter about =
      (more.filter about).foldl place (bookings.filter about) := by
  induction more generalizing bookings with
  | nil => rfl
  | cons booking rest ih =>
    rw [List.foldl_cons, ih _ (sorted_place bookings sorted booking),
      filter_place bookings sorted]
    cases own : about booking with
    | true => rw [if_pos rfl, List.filter_cons_of_pos own, List.foldl_cons]
    | false => rw [if_neg (by decide), List.filter_cons_of_neg (by simp [own])]

end

section
variable (one other : EventKey × Event) (ranked : one.1.priority = one.2.priority)
  (ranked' : other.1.priority = other.2.priority) (before : compare one.1 other.1 = .lt)
include ranked ranked' before

theorem precedes_of_lt : (ofEntry one).precedes (ofEntry other) = true := by
  rw [EventKey.compare_eq, ranked, ranked'] at before
  rcases Ordering.then_eq_lt.1 before with earlier | ⟨same, _⟩
  · exact Ordering.isLE_of_eq_lt earlier
  · exact Ordering.isLE_of_eq_eq same

/-- An event that comes out before one that was scheduled earlier differs from it in more than its
number. -/
theorem not_precedes_of_lt (later : other.1.sequence < one.1.sequence) :
    (ofEntry other).precedes (ofEntry one) = false := by
  rw [EventKey.compare_eq, ranked, ranked'] at before
  rcases Ordering.then_eq_lt.1 before with earlier | ⟨_, lower⟩
  · unfold precedes
    exact Bool.eq_false_iff.2 (OrientedCmp.not_isLE_of_lt earlier)
  · exact absurd (Nat.compare_eq_lt.1 lower) (Nat.lt_asymm later)

end
def entries : (scheduled : Nat) → List Booking → List (EventKey × Event)
  | _, [] => []
  | scheduled, booking :: rest => booking.entry (scheduled + 1) :: entries (scheduled + 1) rest

theorem entries_append (scheduled : Nat) (bookings more : List Booking) :
    entries scheduled (bookings ++ more) =
      entries scheduled bookings ++ entries (scheduled + bookings.length) more := by
  induction bookings generalizing scheduled with
  | nil => rfl
  | cons booking rest ih =>
    rw [List.cons_append, entries, ih, entries, List.cons_append, List.length_cons,
      Nat.add_assoc, Nat.add_comm 1]

theorem map_ofEntry_entries (scheduled : Nat) (bookings : List Booking) :
    (entries scheduled bookings).map ofEntry = bookings := by
  induction bookings generalizing scheduled with
  | nil => rfl
  | cons booking rest ih =>
    rw [entries, List.map_cons, ih]
    rfl

theorem ranked_entries (scheduled : Nat) (bookings : List Booking) (entry : EventKey × Event)
    (listed : entry ∈ entries scheduled bookings) : entry.1.priority = entry.2.priority := by
  induction bookings generalizing scheduled with
  | nil => cases listed
  | cons booking rest ih =>
    cases List.mem_cons.1 listed with
    | inl own =>
      rw [own]
      rfl
    | inr others => exact ih (scheduled + 1) others

theorem ofEntry_mem_of_entries (scheduled : Nat) (bookings : List Booking) (entry : EventKey × Event)
    (listed : entry ∈ entries scheduled bookings) : ofEntry entry ∈ bookings := by
  have mapped := List.mem_map_of_mem (f := ofEntry) listed
  rwa [map_ofEntry_entries] at mapped

theorem sequence_entries (scheduled : Nat) (bookings : List Booking) :
    (entries scheduled bookings).map (fun entry => entry.1.sequence) =
      List.range' (scheduled + 1) bookings.length := by
  induction bookings generalizing scheduled with
  | nil => rfl
  | cons booking rest ih =>
    rw [entries, List.map_cons, ih, List.length_cons, List.range'_succ]
    rfl

theorem lt_of_mem_entries (scheduled : Nat) (bookings : List Booking) (entry : EventKey × Event)
    (listed : entry ∈ entries scheduled bookings) :
    scheduled < entry.1.sequence ∧ entry.1.sequence ≤ scheduled + bookings.length := by
  have number : entry.1.sequence ∈ (entries scheduled bookings).map (fun entry => entry.1.sequence) :=
    List.mem_map_of_mem listed
  rw [sequence_entries, List.mem_range'_1] at number
  omega

theorem ascending_entries (scheduled : Nat) (bookings : List Booking) :
    (entries scheduled bookings).Pairwise fun one other => one.1.sequence < other.1.sequence := by
  apply List.pairwise_map.1
  rw [sequence_entries]
  exact List.pairwise_lt_range'

end Booking

namespace EventQueue

def waiting (queue : EventQueue) : List (EventKey × Event) := queue.events.toList

theorem mem_waiting (queue : EventQueue) (entry : EventKey × Event) :
    entry ∈ queue.waiting ↔ queue.events[entry.1]? = some entry.2 := mem_entries _ _

theorem nodup_waiting (queue : EventQueue) : queue.waiting.Nodup := nodup_toList _

theorem sorted_waiting (queue : EventQueue) :
    queue.waiting.Pairwise fun one other => compare one.1 other.1 = .lt :=
  queue.events.ordered_keys_toList

theorem eq_waiting_of_perm (queue : EventQueue) (entries : List (EventKey × Event))
    (sorted : entries.Pairwise fun one other => compare one.1 other.1 = .lt)
    (perm : entries.Perm queue.waiting) : entries = queue.waiting := by
  refine List.Perm.eq_of_pairwise ?_ sorted queue.sorted_waiting perm
  intro one other _ _ before after
  cases (OrientedCmp.gt_of_lt before).symm.trans after

def booked (queue : EventQueue) : List Booking := queue.waiting.map Booking.ofEntry

structure Ordered (queue : EventQueue) : Prop where
  ahead : ∀ entry ∈ queue.waiting, queue.now ≤ entry.1.time
  numbered : ∀ entry ∈ queue.waiting, entry.1.sequence ≤ queue.scheduled
  ranked : ∀ entry ∈ queue.waiting, entry.1.priority = entry.2.priority

theorem ordered_empty : empty.Ordered := by
  constructor <;> simp [empty, waiting]

theorem waiting_schedule (queue : EventQueue)
    (numbered : ∀ entry ∈ queue.waiting, entry.1.sequence ≤ queue.scheduled) (node : Option NodeId)
    (time : Nat) (event : Event) :
    (queue.schedule node time event).waiting.Perm
      ((queue.nextKey node time event, event) :: queue.waiting) := by
  have fresh : ∀ entry ∈ queue.waiting, entry.1 ≠ queue.nextKey node time event := by
    rintro entry waits same
    have given := numbered entry waits
    rw [same] at given
    exact Nat.not_succ_le_self _ given
  have nodup := List.nodup_cons.2
    ⟨fun again => fresh (queue.nextKey node time event, event) again rfl, queue.nodup_waiting⟩
  refine (List.perm_ext_iff_of_nodup (nodup_waiting _) nodup).2 fun entry => ?_
  rw [mem_waiting, schedule, ExtTreeMap.getElem?_insert, List.mem_cons]
  by_cases same : queue.nextKey node time event = entry.1
  · rw [if_pos (by rw [same, compare_self]), Prod.ext_iff, Option.some.injEq]
    constructor
    · exact fun equal => .inl ⟨same.symm, equal.symm⟩
    · rintro (⟨_, equal⟩ | waits)
      · exact equal.symm
      · exact absurd same.symm (fresh entry waits)
  · rw [if_neg (by rwa [Std.compare_eq_iff_eq]), mem_waiting, or_iff_right]
    rintro rfl
    exact same rfl

section
variable (queue : EventQueue) (ordered : queue.Ordered)
include ordered

theorem ordered_schedule (node : Option NodeId) (time : Nat) (event : Event)
    (due : queue.now ≤ time) : (queue.schedule node time event).Ordered := by
  have entries (entry : EventKey × Event)
      (waits : entry ∈ (queue.schedule node time event).waiting) :
      entry = (queue.nextKey node time event, event) ∨ entry ∈ queue.waiting :=
    List.mem_cons.1 ((queue.waiting_schedule ordered.numbered node time event).mem_iff.1 waits)
  refine ⟨fun entry waits => ?_, fun entry waits => ?_, fun entry waits => ?_⟩
  · rcases entries entry waits with rfl | before
    · exact due
    · exact ordered.ahead entry before
  · rcases entries entry waits with rfl | before
    · exact Nat.le_refl _
    · exact Nat.le_succ_of_le (ordered.numbered entry before)
  · rcases entries entry waits with rfl | before
    · rfl
    · exact ordered.ranked entry before

theorem sorted_booked : Booking.Sorted queue.booked := by
  refine List.pairwise_map.2 (queue.sorted_waiting.imp_of_mem fun waits waits' before => ?_)
  exact Booking.precedes_of_lt _ _ (ordered.ranked _ waits) (ordered.ranked _ waits') before

theorem booked_schedule (node : Option NodeId) (time : Nat) (event : Event) :
    (queue.schedule node time event).booked =
      Booking.place queue.booked ⟨node, time, event⟩ := by
  have perm := queue.waiting_schedule ordered.numbered node time event
  have sorted := (queue.schedule node time event).sorted_waiting
  obtain ⟨before, after, split⟩ := List.append_of_mem (perm.mem_iff.2 List.mem_cons_self)
  rw [split] at perm sorted
  have rest := queue.eq_waiting_of_perm (before ++ after)
    (sorted.sublist ((List.sublist_cons_self _ _).append_left before))
    (List.perm_middle.symm.trans perm).cons_inv
  obtain ⟨_, own, across⟩ := List.pairwise_append.1 sorted
  have waits (entry : EventKey × Event) (listed : entry ∈ before ++ after) :
      entry ∈ queue.waiting := rest ▸ listed
  unfold booked
  rw [split, ← rest, List.map_append, List.map_append, List.map_cons]
  symm
  apply Booking.place_append
  · intro other mapped
    obtain ⟨entry, listed, rfl⟩ := List.mem_map.1 mapped
    exact Booking.precedes_of_lt entry (queue.nextKey node time event, event)
      (ordered.ranked entry (waits entry (List.mem_append_left _ listed))) rfl
      (across entry listed _ List.mem_cons_self)
  · intro other mapped
    obtain ⟨entry, listed, rfl⟩ := List.mem_map.1 mapped
    have known := waits entry (List.mem_append_right _ listed)
    exact Booking.not_precedes_of_lt (queue.nextKey node time event, event) entry rfl
      (ordered.ranked entry known) ((List.pairwise_cons.1 own).1 entry listed)
      (Nat.lt_succ_of_le (ordered.numbered entry known))

theorem ordered_advanceTo (horizon : Nat)
    (none : ∀ entry ∈ queue.waiting, horizon ≤ entry.1.time) : (queue.advanceTo horizon).Ordered where
  ahead entry waits := Nat.max_le.2 ⟨ordered.ahead entry waits, none entry waits⟩
  numbered := ordered.numbered
  ranked := ordered.ranked

end

structure Popped (queue : EventQueue) (horizon : Nat) (key : EventKey) (event : Event)
    (rest : EventQueue) : Prop where
  due : key.time ≤ horizon
  waiting : queue.waiting.Perm ((key, event) :: rest.waiting)
  first : ∀ entry ∈ rest.waiting, key.time ≤ entry.1.time ∧
    (key.time = entry.1.time → key.priority.rank ≤ entry.1.priority.rank)
  now : rest.now = key.time
  scheduled : rest.scheduled = queue.scheduled

theorem due_of_popUntil (queue rest : EventQueue) (horizon : Nat) (key : EventKey) (event : Event)
    (popped : queue.popUntil horizon = some (key, event, rest)) :
    queue.next? = some (key, event) ∧ key.time ≤ horizon := by
  unfold popUntil at popped
  split at popped
  · cases popped
  · split at popped
    · cases popped
    · cases popped
      exact ⟨‹_›, Nat.le_of_not_lt ‹_›⟩

theorem lt_of_popUntil (queue rest : EventQueue) (horizon : Nat) (key : EventKey) (event : Event)
    (popped : queue.popUntil horizon = some (key, event, rest)) (entry : EventKey × Event)
    (waits : entry ∈ rest.waiting) : compare key entry.1 = .lt := by
  have head := (queue.due_of_popUntil rest horizon key event popped).1
  obtain ⟨_, rfl⟩ := queue.popUntil_eq_some rest horizon key event popped
  obtain ⟨different, before⟩ := (mem_toList_erase queue.events key entry).1 waits
  have sorted := queue.events.ordered_keys_toList
  rw [next?_eq_head?] at head
  cases entries : queue.events.toList with
  | nil =>
    rw [entries] at head
    cases head
  | cons first later =>
    rw [entries] at head before sorted
    cases head
    apply (List.pairwise_cons.1 sorted).1 entry
    refine (List.mem_cons.1 before).resolve_left ?_
    rintro rfl
    exact different rfl

theorem popped_of_popUntil (queue rest : EventQueue) (horizon : Nat) (key : EventKey) (event : Event)
    (popped : queue.popUntil horizon = some (key, event, rest)) :
    queue.Popped horizon key event rest := by
  have due := queue.due_of_popUntil rest horizon key event popped
  have least := queue.lt_of_popUntil rest horizon key event popped
  obtain ⟨found, rfl⟩ := queue.popUntil_eq_some rest horizon key event popped
  exact ⟨due.2, perm_toList_erase queue.events key event found,
    fun entry waits => EventKey.time_le_of_lt key entry.1 (least entry waits), rfl, rfl⟩

theorem waiting_of_popUntil (queue rest : EventQueue) (horizon : Nat) (key : EventKey) (event : Event)
    (popped : queue.popUntil horizon = some (key, event, rest)) :
    queue.waiting = (key, event) :: rest.waiting := by
  have least := queue.lt_of_popUntil rest horizon key event popped
  have out := queue.popped_of_popUntil rest horizon key event popped
  exact (queue.eq_waiting_of_perm ((key, event) :: rest.waiting)
    (List.pairwise_cons.2 ⟨least, rest.sorted_waiting⟩) out.waiting.symm).symm

theorem booked_of_popUntil (queue rest : EventQueue) (horizon : Nat) (key : EventKey) (event : Event)
    (popped : queue.popUntil horizon = some (key, event, rest)) :
    queue.booked = .ofEntry (key, event) :: rest.booked := by
  unfold booked
  rw [queue.waiting_of_popUntil rest horizon key event popped, List.map_cons]

theorem exists_popUntil_of_booked (queue : EventQueue) (horizon : Nat) (booking : Booking)
    (more : List Booking) (waits : queue.booked = booking :: more) (due : booking.time ≤ horizon) :
    ∃ key rest, queue.popUntil horizon = some (key, booking.event, rest) ∧
      Booking.ofEntry (key, booking.event) = booking ∧ rest.booked = more := by
  obtain ⟨⟨key, event⟩, later, entries, rfl, _⟩ := List.map_eq_cons_iff.1 waits
  have popped := queue.popUntil_of_head? horizon key event (by
    change queue.waiting.head? = _
    rw [entries]
    rfl)
  change key.time ≤ horizon at due
  rw [if_neg (Nat.not_lt_of_le due)] at popped
  have booked := queue.booked_of_popUntil _ horizon key event popped
  exact ⟨key, _, popped, rfl, (List.cons.inj (booked.symm.trans waits)).2⟩

theorem popUntil_eq_none (queue : EventQueue) (horizon : Nat) :
    queue.popUntil horizon = none ↔ ∀ entry ∈ queue.waiting, horizon < entry.1.time := by
  have sorted := queue.events.ordered_keys_toList
  unfold popUntil waiting
  rw [next?_eq_head?]
  cases entries : queue.events.toList with
  | nil => simp
  | cons first later =>
    rw [entries] at sorted
    simp only [List.head?_cons, ite_eq_left_iff, reduceCtorEq, imp_false, not_not,
      List.forall_mem_cons]
    refine ⟨fun after => ⟨after, fun entry listed => ?_⟩, fun all => all.1⟩
    have before := (List.pairwise_cons.1 sorted).1 entry listed
    exact Nat.lt_of_lt_of_le after (EventKey.time_le_of_lt _ _ before).1

theorem ordered_of_popped (queue rest : EventQueue) (ordered : queue.Ordered) (horizon : Nat)
    (key : EventKey) (event : Event) (popped : queue.Popped horizon key event rest) :
    rest.Ordered ∧ queue.now ≤ key.time ∧ key.priority = event.priority := by
  have before (entry : EventKey × Event) (waits : entry ∈ rest.waiting) : entry ∈ queue.waiting :=
    popped.waiting.mem_iff.2 (List.mem_cons_of_mem _ waits)
  have own := popped.waiting.mem_iff.2 List.mem_cons_self
  refine ⟨⟨fun entry waits => ?_, fun entry waits => ?_, fun entry waits => ?_⟩,
    ordered.ahead _ own, ordered.ranked _ own⟩
  · rw [popped.now]
    exact (popped.first entry waits).1
  · rw [popped.scheduled]
    exact ordered.numbered entry (before entry waits)
  · exact ordered.ranked entry (before entry waits)

/-- The queue has taken bookings: they wait under the next numbers with what waited before, each in its
place, and the clock has not moved. -/
structure Gains (queue later : EventQueue) (bookings : List Booking) : Prop where
  ordered : later.Ordered
  now : later.now = queue.now
  scheduled : later.scheduled = queue.scheduled + bookings.length
  waiting : later.waiting.Perm (Booking.entries queue.scheduled bookings ++ queue.waiting)
  placed : later.booked = bookings.foldl Booking.place queue.booked

theorem gains_nil (queue : EventQueue) (ordered : queue.Ordered) : queue.Gains queue [] where
  ordered := ordered
  now := rfl
  scheduled := rfl
  waiting := .refl _
  placed := rfl

theorem gains_schedule (queue : EventQueue) (ordered : queue.Ordered) (node : Option NodeId)
    (time : Nat) (event : Event) (due : queue.now ≤ time) :
    queue.Gains (queue.schedule node time event) [⟨node, time, event⟩] where
  ordered := queue.ordered_schedule ordered node time event due
  now := rfl
  scheduled := rfl
  waiting := queue.waiting_schedule ordered.numbered node time event
  placed := queue.booked_schedule ordered node time event

theorem Gains.append (queue middle later : EventQueue) (bookings more : List Booking)
    (first : queue.Gains middle bookings) (second : middle.Gains later more) :
    queue.Gains later (bookings ++ more) where
  ordered := second.ordered
  now := second.now.trans first.now
  scheduled := by rw [second.scheduled, first.scheduled, List.length_append, Nat.add_assoc]
  waiting := by
    have both := second.waiting.trans (first.waiting.append_left _)
    rw [first.scheduled, ← List.append_assoc] at both
    rw [Booking.entries_append]
    exact both.trans (List.perm_append_comm.append_right _)
  placed := by rw [second.placed, first.placed, List.foldl_append]

theorem Popped.booked (queue rest : EventQueue) (horizon : Nat) (key : EventKey) (event : Event)
    (popped : queue.Popped horizon key event rest) :
    queue.booked.Perm (.ofEntry (key, event) :: rest.booked) :=
  popped.waiting.map Booking.ofEntry

theorem Gains.booked (queue later : EventQueue) (bookings : List Booking)
    (gains : queue.Gains later bookings) : later.booked.Perm (bookings ++ queue.booked) := by
  have mapped := gains.waiting.map Booking.ofEntry
  rwa [List.map_append, Booking.map_ofEntry_entries] at mapped

theorem Gains.keeps (queue later : EventQueue) (bookings : List Booking)
    (gains : queue.Gains later bookings) (entry : EventKey × Event) (waits : entry ∈ queue.waiting) :
    entry ∈ later.waiting :=
  gains.waiting.mem_iff.2 (List.mem_append_right _ waits)

theorem gains_setTimer (queue : EventQueue) (ordered : queue.Ordered) (timer : Timer) (delay : Nat) :
    queue.Gains (queue.setTimer timer delay) [⟨none, queue.now + delay, .timer timer⟩] := by
  have counted : { queue with timersSet := queue.timersSet + 1 }.Ordered :=
    ⟨ordered.ahead, ordered.numbered, ordered.ranked⟩
  have gains := gains_schedule _ counted none (queue.now + delay) (.timer timer) (Nat.le_add_right _ _)
  exact ⟨gains.ordered, gains.now, gains.scheduled, gains.waiting, gains.placed⟩

end EventQueue
end Multicast
