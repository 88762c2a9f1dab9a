import Multicast.Proofs.Unicast.Chain
import Mathlib.Data.Finset.Card
import Mathlib.Logic.Function.Iterate
import Mathlib.Tactic.Choose

/-!
Chains that do not arrive. The chain from a node may come to one whose next hop is not resolved, or go
on forever. Main statement: as many hops as there are nodes tell which of them it is, wherever the chain
begins to go round.
-/

namespace Multicast.Snapshot

def Onward (snapshot : Snapshot) (destination node later : NodeId) : Prop :=
  node ≠ destination ∧ ∃ next, snapshot.nextHop node destination = .ok next ∧ next.node = later

/-- The chain from a node has a next hop at every step and never arrives. -/
def Endless (snapshot : Snapshot) (destination node : NodeId) : Prop :=
  ∃ nodes : Nat → NodeId, nodes 0 = node ∧
    ∀ index, snapshot.Onward destination (nodes index) (nodes (index + 1))

/-- The chain from a node comes to one whose next hop is not resolved. -/
inductive Stranded (snapshot : Snapshot) (destination : NodeId) : NodeId → UnicastError → Prop where
  | here (node : NodeId) (error : UnicastError) (away : node ≠ destination)
    (failed : snapshot.nextHop node destination = .error error) :
    Stranded snapshot destination node error
  | onward (node later : NodeId) (error : UnicastError)
    (step : snapshot.Onward destination node later)
    (rest : Stranded snapshot destination later error) : Stranded snapshot destination node error

section
variable (snapshot : Snapshot) (destination : NodeId)

theorem Onward.unique (node later other : NodeId) (first : snapshot.Onward destination node later)
    (second : snapshot.Onward destination node other) : later = other := by
  obtain ⟨_, next, found, rfl⟩ := first
  obtain ⟨_, next', found', rfl⟩ := second
  cases found.symm.trans found'
  rfl

theorem Onward.lt_nodeCount (node later : NodeId) (step : snapshot.Onward destination node later) :
    node < snapshot.nodeCount ∧ later < snapshot.nodeCount := by
  obtain ⟨_, next, found, rfl⟩ := step
  obtain ⟨inside, _, _, inside', _⟩ := (nextHop_eq_ok ..).1 found
  exact ⟨inside, inside'⟩

theorem Endless.onward (node later : NodeId) (endless : snapshot.Endless destination node)
    (step : snapshot.Onward destination node later) : snapshot.Endless destination later := by
  obtain ⟨nodes, rfl, steps⟩ := endless
  refine ⟨fun index => nodes (index + 1), ?_, fun index => steps (index + 1)⟩
  exact Onward.unique snapshot destination _ _ _ (steps 0) step

theorem not_endless_of_chain (node : NodeId) (hops : List Hop)
    (chain : snapshot.Chain destination node hops) : ¬snapshot.Endless destination node := by
  induction chain with
  | arrived =>
    rintro ⟨nodes, start, steps⟩
    exact (steps 0).1 start
  | hop node next rest away found later ih =>
    intro endless
    exact ih (endless.onward snapshot destination node _ ⟨away, next, found, rfl⟩)

theorem not_endless_of_stranded (node : NodeId) (error : UnicastError)
    (stranded : snapshot.Stranded destination node error) : ¬snapshot.Endless destination node := by
  induction stranded with
  | here node error away failed =>
    rintro ⟨nodes, rfl, steps⟩
    obtain ⟨_, next, found, _⟩ := steps 0
    cases failed.symm.trans found
  | onward node later error step rest ih =>
    intro endless
    exact ih (endless.onward snapshot destination node later step)

theorem not_stranded_of_chain (node : NodeId) (hops : List Hop)
    (chain : snapshot.Chain destination node hops) (error : UnicastError) :
    ¬snapshot.Stranded destination node error := by
  induction chain with
  | arrived =>
    intro stranded
    cases stranded with
    | here _ _ away _ => exact away rfl
    | onward _ _ _ step _ => exact step.1 rfl
  | hop node next rest away found later ih =>
    intro stranded
    cases stranded with
    | here _ _ _ failed => cases found.symm.trans failed
    | onward _ other _ step rest =>
      have same := Onward.unique snapshot destination node _ _ step ⟨away, next, found, rfl⟩
      exact ih (same ▸ rest)

theorem Stranded.unique (node : NodeId) (error other : UnicastError)
    (first : snapshot.Stranded destination node error)
    (second : snapshot.Stranded destination node other) : error = other := by
  induction first with
  | here node error away failed =>
    cases second with
    | here _ _ _ failed' => exact Except.error.inj (failed.symm.trans failed')
    | onward _ _ _ step _ =>
      obtain ⟨_, next, found, _⟩ := step
      cases failed.symm.trans found
  | onward node later error step rest ih =>
    cases second with
    | here _ _ _ failed =>
      obtain ⟨_, next, found, _⟩ := step
      cases failed.symm.trans found
    | onward _ later' _ step' rest' =>
      have same := Onward.unique snapshot destination node _ _ step' step
      exact ih (same ▸ rest')

theorem stranded_of_pathWithin (budget : Nat) (node : NodeId) (error : UnicastError)
    (path : snapshot.pathWithin destination budget node = .error (.unresolved error)) :
    snapshot.Stranded destination node error := by
  induction budget generalizing node with
  | zero =>
    by_cases away : node = destination
    · rw [away, pathWithin_self] at path
      cases path
    · rw [pathWithin_zero _ _ _ away] at path
      cases path
  | succ budget ih =>
    by_cases away : node = destination
    · rw [away, pathWithin_self] at path
      cases path
    · rw [pathWithin_succ _ _ _ _ away] at path
      split at path
      · rename_i failed
        cases path
        exact .here node error away failed
      · rename_i next found
        split at path
        · rename_i inner
          cases path
          exact .onward node next.node error ⟨away, next, found, rfl⟩ (ih next.node inner)
        · cases path

theorem steps_of_pathWithin (budget : Nat) (node : NodeId) (hops : Nat)
    (path : snapshot.pathWithin destination budget node = .error (.loop hops)) :
    hops = snapshot.nodeCount ∧ ∃ nodes : Nat → NodeId, nodes 0 = node ∧
      ∀ index < budget, snapshot.Onward destination (nodes index) (nodes (index + 1)) := by
  induction budget generalizing node with
  | zero =>
    by_cases away : node = destination
    · rw [away, pathWithin_self] at path
      cases path
    · rw [pathWithin_zero _ _ _ away] at path
      cases path
      exact ⟨rfl, fun _ => node, rfl, fun _ none => absurd none (Nat.not_lt_zero _)⟩
  | succ budget ih =>
    by_cases away : node = destination
    · rw [away, pathWithin_self] at path
      cases path
    · rw [pathWithin_succ _ _ _ _ away] at path
      split at path
      · cases path
      · rename_i next found
        split at path
        · rename_i inner
          cases path
          obtain ⟨bound, nodes, start, steps⟩ := ih next.node inner
          refine ⟨bound, fun index => Nat.casesOn index node nodes, rfl, fun index inside => ?_⟩
          cases index with
          | zero => exact ⟨away, next, found, start.symm⟩
          | succ index => exact steps index (Nat.lt_of_succ_lt_succ inside)
        · cases path

theorem endless_of_closed (inside : NodeId → Prop) (node : NodeId) (start : inside node)
    (closed : ∀ node, inside node → ∃ later, snapshot.Onward destination node later ∧ inside later) :
    snapshot.Endless destination node := by
  choose! following steps kept using closed
  have stays (index : Nat) : inside (following^[index] node) := by
    induction index with
    | zero => exact start
    | succ index ih =>
      rw [Function.iterate_succ_apply']
      exact kept _ ih
  refine ⟨fun index => following^[index] node, rfl, fun index => ?_⟩
  dsimp only
  rw [Function.iterate_succ_apply']
  exact steps _ (stays index)

variable (nodes : Nat → NodeId) (budget : Nat)
  (steps : ∀ index < budget, snapshot.Onward destination (nodes index) (nodes (index + 1)))
include steps

theorem same_of_steps (first second : Nat) (same : nodes first = nodes second)
    (before : first ≤ second) (offset : Nat) (inside : second + offset ≤ budget) :
    nodes (first + offset) = nodes (second + offset) := by
  induction offset with
  | zero => exact same
  | succ offset ih =>
    have step := steps (first + offset) (by omega)
    rw [ih (by omega)] at step
    exact Onward.unique snapshot destination _ _ _ step (steps (second + offset) (by omega))

/-- A chain that takes as many hops as there are nodes has visited a node twice. -/
theorem endless_of_steps (enough : snapshot.nodeCount ≤ budget) (positive : 0 < budget) :
    snapshot.Endless destination (nodes 0) := by
  have maps : ∀ index ∈ Finset.range (budget + 1), nodes index ∈ Finset.range snapshot.nodeCount := by
    intro index member
    rw [Finset.mem_range] at member ⊢
    cases index with
    | zero => exact ((steps 0 positive).lt_nodeCount snapshot destination).1
    | succ index => exact ((steps index (by omega)).lt_nodeCount snapshot destination).2
  have fewer : (Finset.range snapshot.nodeCount).card < (Finset.range (budget + 1)).card := by
    rw [Finset.card_range, Finset.card_range]
    omega
  obtain ⟨one, member, other, member', apart, same⟩ :=
    Finset.exists_ne_map_eq_of_card_lt_of_maps_to fewer maps
  rw [Finset.mem_range] at member member'
  obtain ⟨first, second, before, inside, same⟩ :
      ∃ first second, first < second ∧ second ≤ budget ∧ nodes first = nodes second := by
    rcases Nat.lt_or_gt_of_ne apart with less | greater
    · exact ⟨one, other, less, by omega, same⟩
    · exact ⟨other, one, greater, by omega, same.symm⟩
  -- The last node was visited before, so the nodes before it lead to nodes before it.
  have again := same_of_steps snapshot destination nodes budget steps first second same
    (Nat.le_of_lt before) (budget - second) (by omega)
  rw [Nat.add_sub_cancel' inside] at again
  refine endless_of_closed snapshot destination (fun node => ∃ index < budget, nodes index = node)
    _ ⟨0, positive, rfl⟩ ?_
  rintro _ ⟨index, known, rfl⟩
  refine ⟨nodes (index + 1), steps index known, ?_⟩
  rcases Nat.lt_or_eq_of_le (Nat.succ_le_of_lt known) with later | last
  · exact ⟨index + 1, later, rfl⟩
  · exact ⟨first + (budget - second), by omega, again.trans (congrArg nodes last.symm)⟩

end

section
variable (snapshot : Snapshot) (source destination : NodeId) (positive : 0 < snapshot.nodeCount)
include positive

theorem endless_of_path (hops : Nat)
    (path : snapshot.path source destination = .error (.loop hops)) :
    hops = snapshot.nodeCount ∧ snapshot.Endless destination source := by
  obtain ⟨bound, nodes, rfl, steps⟩ := steps_of_pathWithin snapshot destination _ source hops path
  exact ⟨bound, endless_of_steps snapshot destination nodes _ steps (Nat.le_refl _) positive⟩

theorem path_eq_loop_iff (hops : Nat) :
    snapshot.path source destination = .error (.loop hops) ↔
      hops = snapshot.nodeCount ∧ snapshot.Endless destination source := by
  constructor
  · exact endless_of_path snapshot source destination positive hops
  · rintro ⟨rfl, endless⟩
    cases path : snapshot.path source destination with
    | ok hops =>
      have chain := (path_eq_ok_iff ..).1 path
      exact absurd endless (not_endless_of_chain snapshot destination source hops chain)
    | error error =>
      cases error with
      | loop hops => rw [(endless_of_path snapshot source destination positive hops path).1]
      | unresolved error =>
        have stranded := stranded_of_pathWithin snapshot destination _ source error path
        exact absurd endless (not_endless_of_stranded snapshot destination source error stranded)

theorem path_eq_unresolved_iff (error : UnicastError) :
    snapshot.path source destination = .error (.unresolved error) ↔
      snapshot.Stranded destination source error := by
  constructor
  · exact stranded_of_pathWithin snapshot destination _ source error
  · intro stranded
    cases path : snapshot.path source destination with
    | ok hops =>
      have chain := (path_eq_ok_iff ..).1 path
      exact absurd stranded (not_stranded_of_chain snapshot destination source hops chain error)
    | error other =>
      cases other with
      | loop hops =>
        obtain ⟨_, endless⟩ := endless_of_path snapshot source destination positive hops path
        exact absurd endless (not_endless_of_stranded snapshot destination source error stranded)
      | unresolved other =>
        have stranded' := stranded_of_pathWithin snapshot destination _ source other path
        rw [Stranded.unique snapshot destination source other error stranded' stranded]

theorem stranded_or_endless (lost : ¬∃ hops, snapshot.Chain destination source hops) :
    (∃ error, snapshot.Stranded destination source error) ∨ snapshot.Endless destination source := by
  cases path : snapshot.path source destination with
  | ok hops => exact absurd ⟨hops, (path_eq_ok_iff ..).1 path⟩ lost
  | error error =>
    cases error with
    | loop hops => exact .inr (endless_of_path snapshot source destination positive hops path).2
    | unresolved error =>
      exact .inl ⟨error, stranded_of_pathWithin snapshot destination _ source error path⟩

end

/-- Four nodes in a row. Packets from node 0 arrive at node 1, and those for node 3 go round between the
nodes 1 and 2. -/
def eddy : Snapshot :=
  { (((empty 0 4).addLink 0 1 1 1).addLink 1 2 2 1).addLink 2 2 3 1 with
    nextHops := (((NextHops.empty.set 0 1 [1]).set 0 3 [1]).set 1 3 [2]).set 2 3 [1] }

theorem endless_eddy : eddy.Endless 3 0 := by
  refine endless_of_closed eddy 3 (· < 3) 0 (by decide) fun node inside => ?_
  have onward (node : NodeId) (next : NextHop) (away : node ≠ 3)
      (found : eddy.nextHop node 3 = .ok next) (kept : next.node < 3) :
      ∃ later, eddy.Onward 3 node later ∧ later < 3 := ⟨_, ⟨away, next, found, rfl⟩, kept⟩
  match node, inside with
  | 0, _ => exact onward 0 ⟨1, 1, 1⟩ (by decide) (by decide +kernel) (by decide)
  | 1, _ => exact onward 1 ⟨2, 2, 1⟩ (by decide) (by decide +kernel) (by decide)
  | 2, _ => exact onward 2 ⟨1, 1, 2⟩ (by decide) (by decide +kernel) (by decide)

end Multicast.Snapshot
