import Multicast.Unicast.Snapshot
import Multicast.Proofs.Traversal
import Mathlib.Data.List.Nodup

/-!
Paths. The next hop depends on the node and the destination alone, so a path that arrives never
comes back to a node it has left: it would go round forever. Main statement: the senders of a path
are pairwise different.
-/

namespace Multicast
namespace Snapshot

theorem checkNode_eq_ok (snapshot : Snapshot) (node : NodeId) (checked : Unit) :
    snapshot.checkNode node = .ok checked ↔ node < snapshot.nodeCount := by
  unfold checkNode
  by_cases inside : node < snapshot.nodeCount
  · simp [inside]
  · simp [inside]

theorem nextHop_eq_ok (snapshot : Snapshot) (node destination : NodeId) (next : NextHop) :
    snapshot.nextHop node destination = .ok next ↔
      node < snapshot.nodeCount ∧ destination < snapshot.nodeCount ∧
      snapshot.nextHops.first? node destination = some next.node ∧
      next.node < snapshot.nodeCount ∧
      snapshot.interfaces.interfaceTo? node next.node = some next.outInterface ∧
      snapshot.interfaces.interfaceTo? next.node node = some next.inInterface := by
  obtain ⟨neighbor, outInterface, inInterface⟩ := next
  unfold nextHop
  simp only [Traversal.bind_eq_ok, checkNode_eq_ok, exists_and_left, exists_const]
  cases first : snapshot.nextHops.first? node destination with
  | none => simp
  | some other =>
    simp only [Traversal.bind_eq_ok, checkNode_eq_ok, exists_and_left, exists_const]
    cases out : snapshot.interfaces.interfaceTo? node other with
    | none => grind
    | some leaving =>
      cases back : snapshot.interfaces.interfaceTo? other node with
      | none => grind
      | some entering =>
        simp only [pure, Except.pure, Except.ok.injEq, NextHop.mk.injEq]
        grind

theorem pathWithin_self (snapshot : Snapshot) (destination : NodeId) (budget : Nat) :
    snapshot.pathWithin destination budget destination = .ok [] := by
  unfold pathWithin
  exact if_pos rfl

def hopFrom (node : NodeId) (next : NextHop) : Hop :=
  ⟨node, next.outInterface, next.node, next.inInterface⟩

theorem pathWithin_zero (snapshot : Snapshot) (destination node : NodeId)
    (away : node ≠ destination) :
    snapshot.pathWithin destination 0 node = .error (.loop snapshot.nodeCount) := by
  rw [pathWithin, if_neg away]

theorem pathWithin_succ (snapshot : Snapshot) (destination node : NodeId) (budget : Nat)
    (away : node ≠ destination) :
    snapshot.pathWithin destination (budget + 1) node =
      match snapshot.nextHop node destination with
      | .error error => .error (.unresolved error)
      | .ok next =>
        match snapshot.pathWithin destination budget next.node with
        | .error error => .error error
        | .ok rest => .ok (hopFrom node next :: rest) := by
  rw [pathWithin, if_neg away]
  rfl

theorem pathWithin_eq_ok (snapshot : Snapshot) (destination node : NodeId) (budget : Nat)
    (hops : List Hop) :
    snapshot.pathWithin destination budget node = .ok hops ↔
      (node = destination ∧ hops = []) ∨
      (node ≠ destination ∧ ∃ next later rest, budget = later + 1 ∧
        snapshot.nextHop node destination = .ok next ∧
        snapshot.pathWithin destination later next.node = .ok rest ∧
        hops = hopFrom node next :: rest) := by
  by_cases arrived : node = destination
  · subst arrived
    simp [pathWithin_self, eq_comm]
  · cases budget with
    | zero => simp [pathWithin_zero _ _ _ arrived, arrived]
    | succ later =>
      rw [pathWithin_succ _ _ _ _ arrived]
      cases found : snapshot.nextHop node destination with
      | error error => simp [arrived]
      | ok next =>
        cases inner : snapshot.pathWithin destination later next.node with
        | error error => simp [arrived, inner]
        | ok rest => simp [arrived, inner, eq_comm]

theorem pathWithin_cons (snapshot : Snapshot) (destination node : NodeId) (budget : Nat) (hop : Hop)
    (rest : List Hop) (path : snapshot.pathWithin destination budget node = .ok (hop :: rest)) :
    node ≠ destination ∧ ∃ next later, snapshot.nextHop node destination = .ok next ∧
      hop = hopFrom node next ∧ snapshot.pathWithin destination later next.node = .ok rest := by
  rcases (pathWithin_eq_ok ..).1 path with
    ⟨_, empty⟩ | ⟨away, next, later, tail, _, found, inner, same⟩
  · cases empty
  · cases same
    exact ⟨away, next, later, found, rfl, inner⟩

theorem pathWithin_unique (snapshot : Snapshot) (destination node : NodeId)
    (budget other : Nat) (hops others : List Hop)
    (first : snapshot.pathWithin destination budget node = .ok hops)
    (second : snapshot.pathWithin destination other node = .ok others) : hops = others := by
  induction hops generalizing budget other node others with
  | nil =>
    rcases (pathWithin_eq_ok ..).1 first with ⟨rfl, _⟩ | ⟨_, _, _, _, _, _, _, absurd⟩
    · rw [pathWithin_self] at second
      exact Except.ok.inj second
    · cases absurd
  | cons hop rest ih =>
    obtain ⟨away, next, later, found, rfl, inner⟩ := pathWithin_cons _ _ _ _ _ _ first
    rcases (pathWithin_eq_ok ..).1 second with
      ⟨here, _⟩ | ⟨_, next', later', rest', _, found', inner', rfl⟩
    · exact absurd here away
    · cases found.symm.trans found'
      rw [ih next.node later later' rest' inner inner']

/-- From every node on a path the path goes on as it does from there. -/
theorem pathWithin_suffix (snapshot : Snapshot) (destination node : NodeId) (budget : Nat)
    (before : List Hop) (hop : Hop) (after : List Hop)
    (path : snapshot.pathWithin destination budget node = .ok (before ++ hop :: after)) :
    ∃ later, snapshot.pathWithin destination later hop.sender = .ok (hop :: after) := by
  induction before generalizing budget node with
  | nil =>
    obtain ⟨_, next, _, _, same, _⟩ := pathWithin_cons _ _ _ _ _ _ path
    refine ⟨budget, ?_⟩
    rw [same] at path ⊢
    exact path
  | cons first before ih =>
    obtain ⟨_, next, later, _, _, inner⟩ := pathWithin_cons _ _ _ _ _ _ path
    exact ih next.node later inner

theorem nextHop_of_mem (snapshot : Snapshot) (destination node : NodeId) (budget : Nat)
    (hops : List Hop) (path : snapshot.pathWithin destination budget node = .ok hops) (hop : Hop)
    (member : hop ∈ hops) :
    ∃ next, snapshot.nextHop hop.sender destination = .ok next ∧ hop = hopFrom hop.sender next := by
  obtain ⟨before, after, rfl⟩ := List.append_of_mem member
  obtain ⟨later, suffix⟩ := pathWithin_suffix _ _ _ _ before hop after path
  obtain ⟨_, next, _, found, same, _⟩ := pathWithin_cons _ _ _ _ _ _ suffix
  exact ⟨next, found, same⟩

theorem sender_of_mem (snapshot : Snapshot) (destination node : NodeId) (budget : Nat)
    (hops : List Hop) (path : snapshot.pathWithin destination budget node = .ok hops) (hop : Hop)
    (member : hop ∈ hops) : hop.sender = node ∨ ∃ earlier ∈ hops, earlier.receiver = hop.sender := by
  induction hops generalizing budget node with
  | nil => cases member
  | cons first rest ih =>
    obtain ⟨_, next, later, _, same, inner⟩ := pathWithin_cons _ _ _ _ _ _ path
    rcases List.mem_cons.1 member with rfl | member
    · rw [same]
      exact .inl rfl
    · have entered : first.receiver = next.node := by rw [same]; rfl
      rcases ih next.node later inner member with here | ⟨earlier, listed, entered⟩
      · exact .inr ⟨first, List.mem_cons_self, entered.trans here.symm⟩
      · exact .inr ⟨earlier, List.mem_cons_of_mem _ listed, entered⟩

theorem pathWithin_senders_nodup (snapshot : Snapshot) (destination node : NodeId) (budget : Nat)
    (hops : List Hop) (path : snapshot.pathWithin destination budget node = .ok hops) :
    (hops.map Hop.sender).Nodup := by
  induction hops generalizing budget node with
  | nil => exact List.nodup_nil
  | cons hop rest ih =>
    obtain ⟨_, next, later, _, same, inner⟩ := pathWithin_cons _ _ _ _ _ _ path
    rw [List.map_cons, List.nodup_cons]
    refine ⟨?_, ih next.node later inner⟩
    intro again
    obtain ⟨other, member, senders⟩ := List.mem_map.1 again
    obtain ⟨before, after, rfl⟩ := List.append_of_mem member
    -- The path from the repeated node would be a proper end of itself.
    obtain ⟨budget', suffix⟩ := pathWithin_suffix _ _ _ _ (hop :: before) other after path
    have start : hop.sender = node := by rw [same]; rfl
    rw [senders, start] at suffix
    have lengths := congrArg List.length (pathWithin_unique _ _ _ _ _ _ _ path suffix)
    simp only [List.length_cons, List.length_append] at lengths
    omega

theorem path_leaves_once (snapshot : Snapshot) (source destination : NodeId) (hops : List Hop)
    (path : snapshot.path source destination = .ok hops) (hop : Hop) (member : hop ∈ hops)
    (leaves : hop.sender = source) :
    ∃ next, snapshot.nextHop source destination = .ok next ∧ hop = hopFrom source next := by
  cases hops with
  | nil => cases member
  | cons first rest =>
    obtain ⟨_, next, later, found, same, _⟩ := pathWithin_cons _ _ _ _ _ _ path
    have senders := pathWithin_senders_nodup _ _ _ _ _ path
    rw [List.map_cons, List.nodup_cons] at senders
    rcases List.mem_cons.1 member with rfl | later
    · exact ⟨next, found, same⟩
    · have start : first.sender = source := by rw [same]; rfl
      exact absurd (List.mem_map.2 ⟨hop, later, leaves.trans start.symm⟩) senders.1

theorem path_first (snapshot : Snapshot) (source destination : NodeId) (hops : List Hop)
    (path : snapshot.path source destination = .ok hops) (away : source ≠ destination) :
    ∃ next, snapshot.nextHop source destination = .ok next ∧ hopFrom source next ∈ hops := by
  rcases (pathWithin_eq_ok ..).1 path with ⟨here, _⟩ | ⟨_, next, _, rest, _, found, _, rfl⟩
  · exact absurd here away
  · exact ⟨next, found, List.mem_cons_self⟩

def way? (snapshot : Snapshot) (node destination : NodeId) : Option (NodeId × InterfaceId) :=
  match snapshot.nextHop node destination with
  | .error _ => none
  | .ok hop => some (hop.node, hop.outInterface)

theorem way?_eq_some (snapshot : Snapshot) (node destination : NodeId)
    (way : NodeId × InterfaceId) :
    snapshot.way? node destination = some way ↔
      ∃ next, snapshot.nextHop node destination = .ok next ∧
        way = (next.node, next.outInterface) := by
  unfold way?
  cases snapshot.nextHop node destination with
  | error error => simp
  | ok hop => simp [eq_comm]

theorem way?_of_nextHop (snapshot : Snapshot) (node destination : NodeId) (hop : NextHop)
    (found : snapshot.nextHop node destination = .ok hop) :
    snapshot.way? node destination = some (hop.node, hop.outInterface) := by
  unfold way?
  rw [found]

theorem length_pathWithin_le (snapshot : Snapshot) (destination node : NodeId) (budget : Nat)
    (hops : List Hop) (path : snapshot.pathWithin destination budget node = .ok hops) :
    hops.length ≤ budget := by
  induction hops generalizing budget node with
  | nil => exact Nat.zero_le _
  | cons hop rest ih =>
    rcases (pathWithin_eq_ok ..).1 path with ⟨_, absurd⟩ | ⟨_, next, later, tail, rfl, _, inner, same⟩
    · cases absurd
    · cases same
      exact Nat.succ_le_succ (ih next.node later inner)

/-- Following next hops from a node to a destination crosses the given hops. -/
def Leads (snapshot : Snapshot) (node destination : NodeId) (hops : List Hop) : Prop :=
  ∃ budget, snapshot.pathWithin destination budget node = .ok hops

theorem leads_of_path (snapshot : Snapshot) (source destination : NodeId) (hops : List Hop)
    (path : snapshot.path source destination = .ok hops) :
    snapshot.Leads source destination hops := ⟨_, path⟩

theorem leads_self (snapshot : Snapshot) (destination : NodeId) (hops : List Hop) :
    snapshot.Leads destination destination hops ↔ hops = [] := by
  simp [Leads, pathWithin_self, eq_comm]

theorem Leads.unique (snapshot : Snapshot) (node destination : NodeId) (hops others : List Hop)
    (first : snapshot.Leads node destination hops) (second : snapshot.Leads node destination others) :
    hops = others := by
  obtain ⟨budget, first⟩ := first
  obtain ⟨other, second⟩ := second
  exact pathWithin_unique _ _ _ _ _ _ _ first second

theorem leads_of_nextHop (snapshot : Snapshot) (node destination : NodeId) (next : NextHop)
    (away : node ≠ destination) (found : snapshot.nextHop node destination = .ok next)
    (hops : List Hop) :
    snapshot.Leads node destination hops ↔
      ∃ rest, hops = hopFrom node next :: rest ∧ snapshot.Leads next.node destination rest := by
  constructor
  · rintro ⟨budget, path⟩
    rcases (pathWithin_eq_ok ..).1 path with ⟨here, _⟩ | ⟨_, next', later, rest, _, found', inner, rfl⟩
    · exact absurd here away
    · cases found.symm.trans found'
      exact ⟨rest, rfl, later, inner⟩
  · rintro ⟨rest, rfl, budget, inner⟩
    exact ⟨budget + 1,
      (pathWithin_eq_ok ..).2 (.inr ⟨away, next, budget, rest, rfl, found, inner, rfl⟩)⟩

theorem exists_nextHop_of_leads (snapshot : Snapshot) (node destination : NodeId)
    (hops : List Hop) (leads : snapshot.Leads node destination hops) (away : node ≠ destination) :
    ∃ next, snapshot.nextHop node destination = .ok next := by
  obtain ⟨budget, path⟩ := leads
  rcases (pathWithin_eq_ok ..).1 path with ⟨here, _⟩ | ⟨_, next, _, _, _, found, _, _⟩
  · exact absurd here away
  · exact ⟨next, found⟩

end Snapshot
end Multicast
