import Multicast.Unicast.Interfaces
import Mathlib.Data.List.Induction
import Mathlib.Data.List.Nodup

/-!
Interfaces. A table of interfaces that is made by recording links keeps its two directions in
agreement. Main statements: the neighbour on an interface is the only one that the interface leads to,
and the last record of an end of a link decides where the interface leads.
-/

namespace Multicast
open Std

namespace InterfaceMap

inductive Made : InterfaceMap → Prop where
  | empty : Made .empty
  | insert (interfaces : InterfaceMap) (node neighbor : NodeId) (interface : InterfaceId)
    (earlier : Made interfaces) : Made (interfaces.insert node neighbor interface)

def behind (facing : ExtTreeMap (NodeId × InterfaceId) (List NodeId)) (node : NodeId)
    (interface : InterfaceId) : List NodeId :=
  facing[(node, interface)]?.getD []

/-- A neighbour stands behind the interface that leads to it, once, and behind no other. -/
structure Agree (interfaces : InterfaceMap) : Prop where
  mem_behind (node neighbor : NodeId) (interface : InterfaceId) :
    neighbor ∈ behind interfaces.facing node interface ↔
      interfaces.interfaceTo? node neighbor = some interface
  nodup (node : NodeId) (interface : InterfaceId) :
    (behind interfaces.facing node interface).Nodup

theorem behind_withdraw (facing : ExtTreeMap (NodeId × InterfaceId) (List NodeId))
    (node other : NodeId) (interface leaving : InterfaceId) (neighbor : NodeId) :
    behind (withdraw facing node leaving neighbor) other interface =
      if node = other ∧ leaving = interface then
        (behind facing other interface).filter (· ≠ neighbor)
      else behind facing other interface := by
  unfold behind withdraw
  rw [ExtTreeMap.getElem?_modify]
  simp only [Std.compare_eq_iff_eq, Prod.mk.injEq]
  split
  · rename_i same
    obtain ⟨rfl, rfl⟩ := same
    cases facing[(node, leaving)]? with
    | none => rfl
    | some neighbors => rfl
  · rfl

theorem behind_present (facing : ExtTreeMap (NodeId × InterfaceId) (List NodeId))
    (node other : NodeId) (interface entered : InterfaceId) (neighbor : NodeId) :
    behind (present facing node entered neighbor) other interface =
      if node = other ∧ entered = interface then
        if neighbor ∈ behind facing other interface then behind facing other interface
        else behind facing other interface ++ [neighbor]
      else behind facing other interface := by
  unfold behind present
  dsimp only
  rw [ExtTreeMap.getElem?_insert]
  simp only [Std.compare_eq_iff_eq, Prod.mk.injEq]
  split
  · rename_i same
    obtain ⟨rfl, rfl⟩ := same
    rfl
  · rfl

theorem interfaceTo?_insert (interfaces : InterfaceMap) (node neighbor : NodeId)
    (interface : InterfaceId) (one other : NodeId) :
    (interfaces.insert node neighbor interface).interfaceTo? one other =
      if node = one ∧ neighbor = other then some interface
      else interfaces.interfaceTo? one other := by
  unfold interfaceTo? insert
  rw [ExtTreeMap.getElem?_insert]
  simp only [Std.compare_eq_iff_eq, Prod.mk.injEq]

def withdrawn (interfaces : InterfaceMap) (node neighbor : NodeId) :
    ExtTreeMap (NodeId × InterfaceId) (List NodeId) :=
  match interfaces.leading[(node, neighbor)]? with
  | none => interfaces.facing
  | some previous => withdraw interfaces.facing node previous neighbor

theorem mem_behind_withdrawn (interfaces : InterfaceMap) (agree : interfaces.Agree)
    (node neighbor one other : NodeId) (interface : InterfaceId) :
    (other ∈ behind (interfaces.withdrawn node neighbor) one interface ↔
      interfaces.interfaceTo? one other = some interface ∧ ¬(node = one ∧ neighbor = other)) ∧
      (behind (interfaces.withdrawn node neighbor) one interface).Nodup := by
  have members := agree.mem_behind one other interface
  have nodup := agree.nodup one interface
  unfold withdrawn
  cases led : interfaces.leading[(node, neighbor)]? with
  | none =>
    refine ⟨members.trans (iff_self_and.2 ?_), nodup⟩
    rintro found ⟨rfl, rfl⟩
    unfold interfaceTo? at found
    rw [led] at found
    cases found
  | some previous =>
    dsimp only
    rw [behind_withdraw]
    split
    · rename_i same
      obtain ⟨rfl, rfl⟩ := same
      rw [List.mem_filter, members, decide_eq_true_eq]
      refine ⟨and_congr_right fun _ => ?_, nodup.filter _⟩
      simp [eq_comm]
    · rename_i different
      refine ⟨members.trans (iff_self_and.2 ?_), nodup⟩
      rintro found ⟨rfl, rfl⟩
      unfold interfaceTo? at found
      rw [led, Option.some.injEq] at found
      exact different ⟨rfl, found⟩

theorem agree_insert (interfaces : InterfaceMap) (agree : interfaces.Agree)
    (node neighbor : NodeId) (interface : InterfaceId) :
    (interfaces.insert node neighbor interface).Agree := by
  have left (one : NodeId) (used : InterfaceId) :
      behind (interfaces.insert node neighbor interface).facing one used =
        behind (present (interfaces.withdrawn node neighbor) node interface neighbor) one used := rfl
  constructor
  · intro one other used
    have members := (mem_behind_withdrawn interfaces agree node neighbor one other used).1
    rw [left, behind_present, interfaceTo?_insert]
    split
    · rename_i same
      obtain ⟨rfl, rfl⟩ := same
      split <;> grind
    · rename_i different
      rw [members]
      grind
  · intro one used
    have nodup := (mem_behind_withdrawn interfaces agree node neighbor one neighbor used).2
    rw [left, behind_present]
    split
    · split
      · exact nodup
      · rename_i absent
        exact List.nodup_append.2 ⟨nodup, List.nodup_singleton _, by grind⟩
    · exact nodup

theorem agree_of_made (interfaces : InterfaceMap) (made : interfaces.Made) : interfaces.Agree := by
  induction made with
  | empty =>
    constructor
    · simp [behind, empty, interfaceTo?]
    · simp [behind, empty]
  | insert interfaces node neighbor interface _ ih =>
    exact agree_insert interfaces ih node neighbor interface

theorem neighborOn?_eq_some (interfaces : InterfaceMap) (made : interfaces.Made) (node : NodeId)
    (interface : InterfaceId) (neighbor : NodeId) :
    interfaces.neighborOn? node interface = some neighbor ↔
      ∀ other, interfaces.interfaceTo? node other = some interface ↔ other = neighbor := by
  obtain ⟨members, nodup⟩ := interfaces.agree_of_made made
  simp only [← members]
  specialize nodup node interface
  unfold neighborOn?
  unfold behind at nodup ⊢
  generalize interfaces.facing[(node, interface)]? = neighbors at nodup ⊢
  rcases neighbors with _ | _ | ⟨first, _ | ⟨second, rest⟩⟩
  · simp
  · simp
  · simp [eq_comm]
  · simp only [reduceCtorEq, Option.getD_some, false_iff]
    intro single
    have same : first = second := by
      calc
        first = neighbor := (single first).1 (by simp)
        _ = second := ((single second).1 (by simp)).symm
    simp [same] at nodup

/-- The neighbours behind interfaces are told by the interfaces that lead to them. -/
theorem neighborOn?_congr (one other : InterfaceMap) (oneMade : one.Made) (otherMade : other.Made)
    (same : ∀ node neighbor, one.interfaceTo? node neighbor = other.interfaceTo? node neighbor)
    (node : NodeId) (interface : InterfaceId) :
    one.neighborOn? node interface = other.neighborOn? node interface := by
  refine Option.ext fun neighbor => ?_
  simp only [neighborOn?_eq_some one oneMade, neighborOn?_eq_some other otherMade, same]

end InterfaceMap

/-! ## Sequences of records -/

/-- One end of a link: an interface of a node, and the neighbour it leads to. -/
structure LinkEnd where
  node : NodeId
  neighbor : NodeId
  interface : InterfaceId
deriving DecidableEq

def LinkEnd.leads (linkEnd : LinkEnd) (node neighbor : NodeId) : Bool :=
  linkEnd.node = node ∧ linkEnd.neighbor = neighbor

def LinkEnd.last? (ends : List LinkEnd) (node neighbor : NodeId) : Option InterfaceId :=
  (ends.filter (·.leads node neighbor)).getLast?.map LinkEnd.interface

theorem getLast?_filter_concat {α : Type} (keeps : α → Bool) (list : List α) (element : α) :
    ((list ++ [element]).filter keeps).getLast? =
      if keeps element then some element else (list.filter keeps).getLast? := by
  rw [List.filter_append, List.filter_singleton]
  cases keeps element with
  | true => rw [cond_true, List.getLast?_concat, if_pos rfl]
  | false => rw [cond_false, List.append_nil, if_neg Bool.false_ne_true]

theorem LinkEnd.last?_concat (ends : List LinkEnd) (linkEnd : LinkEnd) (node neighbor : NodeId) :
    last? (ends ++ [linkEnd]) node neighbor =
      if linkEnd.leads node neighbor then some linkEnd.interface else last? ends node neighbor := by
  unfold last?
  rw [getLast?_filter_concat]
  split
  · rfl
  · rfl

theorem LinkEnd.isSome_last? (ends : List LinkEnd) (linkEnd : LinkEnd) (listed : linkEnd ∈ ends) :
    (last? ends linkEnd.node linkEnd.neighbor).isSome = true := by
  have kept : linkEnd ∈ ends.filter (·.leads linkEnd.node linkEnd.neighbor) :=
    List.mem_filter.2 ⟨listed, decide_eq_true ⟨rfl, rfl⟩⟩
  unfold last?
  rw [Option.isSome_map, List.getLast?_isSome]
  exact List.ne_nil_of_mem kept

theorem LinkEnd.exists_of_last? (ends : List LinkEnd) (node neighbor : NodeId)
    (interface : InterfaceId) (found : last? ends node neighbor = some interface) :
    ∃ linkEnd ∈ ends, linkEnd.interface = interface := by
  obtain ⟨linkEnd, last, same⟩ := Option.map_eq_some_iff.1 found
  exact ⟨linkEnd, (List.mem_filter.1 (List.mem_of_getLast? last)).1, same⟩

namespace InterfaceMap

def recordAll (interfaces : InterfaceMap) (ends : List LinkEnd) : InterfaceMap :=
  ends.foldl (fun table linkEnd => table.insert linkEnd.node linkEnd.neighbor linkEnd.interface)
    interfaces

theorem recordAll_concat (interfaces : InterfaceMap) (ends : List LinkEnd) (linkEnd : LinkEnd) :
    interfaces.recordAll (ends ++ [linkEnd]) =
      (interfaces.recordAll ends).insert linkEnd.node linkEnd.neighbor linkEnd.interface := by
  unfold recordAll
  rw [List.foldl_append]
  rfl

theorem made_recordAll (interfaces : InterfaceMap) (made : interfaces.Made) (ends : List LinkEnd) :
    (interfaces.recordAll ends).Made := by
  induction ends using List.reverseRecOn with
  | nil => exact made
  | append_singleton ends linkEnd ih =>
    rw [recordAll_concat]
    exact .insert _ _ _ _ ih

theorem interfaceTo?_recordAll (interfaces : InterfaceMap) (ends : List LinkEnd)
    (node neighbor : NodeId) : (interfaces.recordAll ends).interfaceTo? node neighbor =
      (LinkEnd.last? ends node neighbor).or (interfaces.interfaceTo? node neighbor) := by
  induction ends using List.reverseRecOn with
  | nil => rfl
  | append_singleton ends linkEnd ih =>
    rw [recordAll_concat, interfaceTo?_insert, LinkEnd.last?_concat, ih]
    simp only [LinkEnd.leads, decide_eq_true_eq]
    split
    · rfl
    · rfl

/-- Whatever ends of links were recorded, again or on another interface: the interface that leads to a
neighbour is the one of the last record, and a neighbour stands on an interface exactly if this
interface leads to it and to no other. Only the order of the records of one end counts. -/
theorem lookups_recordAll (ends : List LinkEnd) :
    (∀ node neighbor, (empty.recordAll ends).interfaceTo? node neighbor =
      LinkEnd.last? ends node neighbor) ∧
    (∀ node interface neighbor, (empty.recordAll ends).neighborOn? node interface = some neighbor ↔
      ∀ other, LinkEnd.last? ends node other = some interface ↔ other = neighbor) ∧
    (∀ node interface neighbor, (empty.recordAll ends).neighborOn? node interface = some neighbor →
      (empty.recordAll ends).interfaceTo? node neighbor = some interface) ∧
    ∀ others : List LinkEnd, (∀ node neighbor,
        ends.filter (·.leads node neighbor) = others.filter (·.leads node neighbor)) →
      (∀ node neighbor, (empty.recordAll ends).interfaceTo? node neighbor =
        (empty.recordAll others).interfaceTo? node neighbor) ∧
      ∀ node interface, (empty.recordAll ends).neighborOn? node interface =
        (empty.recordAll others).neighborOn? node interface := by
  have leading (ends : List LinkEnd) (node neighbor : NodeId) :
      (empty.recordAll ends).interfaceTo? node neighbor = LinkEnd.last? ends node neighbor :=
    (empty.interfaceTo?_recordAll ends node neighbor).trans Option.or_none
  have made (ends : List LinkEnd) := empty.made_recordAll .empty ends
  have only := neighborOn?_eq_some (empty.recordAll ends) (made ends)
  refine ⟨leading ends, ?_, ?_, ?_⟩
  · intro node interface neighbor
    simp only [only, leading]
  · intro node interface neighbor stands
    exact ((only node interface neighbor).1 stands neighbor).2 rfl
  · intro others same
    have led (node neighbor : NodeId) : (empty.recordAll ends).interfaceTo? node neighbor =
        (empty.recordAll others).interfaceTo? node neighbor := by
      rw [leading, leading, LinkEnd.last?, same, LinkEnd.last?]
    exact ⟨led, neighborOn?_congr _ _ (made ends) (made others) led⟩

def sharing : List LinkEnd := [⟨0, 1, 1⟩, ⟨0, 2, 1⟩, ⟨0, 1, 2⟩, ⟨0, 2, 3⟩, ⟨0, 1, 1⟩, ⟨0, 2, 3⟩]

theorem lookups_recordAll_sharing :
    (empty.recordAll sharing).interfaceTo? 0 1 = some 1 ∧
      (empty.recordAll sharing).neighborOn? 0 1 = some 1 ∧
      (empty.recordAll (sharing.filter (·.leads 0 2) ++ sharing.filter (·.leads 0 1))).neighborOn?
        0 1 = some 1 := by
  obtain ⟨_, _, leads, order⟩ := lookups_recordAll sharing
  have same (node neighbor : NodeId) : sharing.filter (·.leads node neighbor) =
      (sharing.filter (·.leads 0 2) ++ sharing.filter (·.leads 0 1)).filter
        (·.leads node neighbor) := by
    by_cases first : 0 = node ∧ 1 = neighbor
    · obtain ⟨rfl, rfl⟩ := first
      decide
    · by_cases second : 0 = node ∧ 2 = neighbor
      · obtain ⟨rfl, rfl⟩ := second
        decide
      · simp [sharing, LinkEnd.leads, first, second]
  have one : (empty.recordAll sharing).neighborOn? 0 1 = some 1 := by decide +kernel
  exact ⟨leads 0 1 1 one, one, ((order _ same).2 0 1).symm.trans one⟩

end InterfaceMap
end Multicast
