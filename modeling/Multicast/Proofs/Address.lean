import Multicast.Proofs.Request
import Mathlib.Algebra.Group.Nat.Defs

/-!
Groups and the numbers of their requests. Writing a number takes it in 32 bits and goes round at the last
address, reading it back does not go below the base. Main statement: two requests share a group exactly if
their numbers agree in 32 bits, and a number is read back exactly where its group is not beyond the last
address.
-/

namespace Multicast

namespace GroupAddress

section
variable (base : GroupAddress) (request : RequestId)

theorem toNat_forRequest : (forRequest base request).word.toNat =
    (base.word.toNat + request % 2 ^ 32) % 2 ^ 32 := by
  simp [forRequest]

theorem forRequest_eq_iff (one other : RequestId) :
    forRequest base one = forRequest base other ↔ one % 2 ^ 32 = other % 2 ^ 32 := by
  have numbers : UInt32.ofNat one = UInt32.ofNat other ↔ one % 2 ^ 32 = other % 2 ^ 32 := by
    rw [← UInt32.toNat_inj, UInt32.toNat_ofNat', UInt32.toNat_ofNat']
  rw [← numbers, ← UInt32.add_right_inj base.word]
  exact ⟨congrArg word, congrArg mk⟩

theorem requestId?_eq_some (group : GroupAddress) :
    group.requestId? base = some request ↔ base.word.toNat + request = group.word.toNat := by
  have inside : base.word ≤ group.word ↔ base.word.toNat ≤ group.word.toNat := UInt32.le_iff_toNat_le
  unfold requestId?
  by_cases above : base.word ≤ group.word
  · rw [if_pos above, Option.some.injEq, UInt32.toNat_sub_of_le _ _ above,
      Nat.sub_eq_iff_eq_add' (inside.1 above), eq_comm]
  · rw [if_neg above]
    have beyond := mt inside.2 above
    simp only [reduceCtorEq, false_iff]
    omega

theorem requestId?_eq_none (group : GroupAddress) :
    group.requestId? base = none ↔ group.word.toNat < base.word.toNat := by
  rw [Option.eq_none_iff_forall_ne_some]
  simp only [ne_eq, requestId?_eq_some]
  constructor
  · intro absent
    by_contra above
    exact absent (group.word.toNat - base.word.toNat) (by omega)
  · intro below request
    omega

theorem requestId?_forRequest : (forRequest base request).requestId? base =
    if base.word.toNat + request % 2 ^ 32 ≤ 2 ^ 32 - 1 then some (request % 2 ^ 32) else none := by
  have small := base.word.toNat_lt
  have sum := toNat_forRequest base request
  split
  case isTrue inside =>
    rw [requestId?_eq_some, sum]
    omega
  case isFalse beyond =>
    -- The sum goes round once, and what is left of it does not reach the base again.
    rw [requestId?_eq_none, sum]
    omega

theorem requestId?_eq_some_iff_forRequest (group : GroupAddress) :
    group.requestId? base = some request ↔
      forRequest base request = group ∧ base.word.toNat + request ≤ 2 ^ 32 - 1 := by
  have bounded := group.word.toNat_lt
  have sum := toNat_forRequest base request
  rw [requestId?_eq_some]
  constructor
  · intro distance
    have word : (forRequest base request).word = group.word := by
      rw [← UInt32.toNat_inj, sum]
      omega
    exact ⟨congrArg mk word, by omega⟩
  · rintro ⟨rfl, inside⟩
    rw [sum]
    omega

theorem pairwise_group_of_numbered (requests : List Request)
    (numbered : Schedule.NumberedFromZero requests) (few : requests.length ≤ 2 ^ 32) :
    requests.Pairwise fun one other => one.group base ≠ other.group base := by
  have distinct : (requests.map Request.id).Nodup := numbered ▸ List.nodup_range
  have small (request : Request) (member : request ∈ requests) : request.id < requests.length := by
    have listed : request.id ∈ requests.map Request.id := List.mem_map_of_mem member
    rw [numbered] at listed
    exact List.mem_range.1 listed
  refine (List.pairwise_map.1 distinct).imp_of_mem fun {one other} member member' apart same => ?_
  have residues := (forRequest_eq_iff base one.id other.id).1 same
  rw [Nat.mod_eq_of_lt (Nat.lt_of_lt_of_le (small one member) few),
    Nat.mod_eq_of_lt (Nat.lt_of_lt_of_le (small other member') few)] at residues
  exact apart residues

/-- Two requests share a group exactly if their numbers agree in 32 bits. The number in 32 bits is read
back if its distance from the base does not pass the last address, and otherwise nothing is, so what is
read for a number of 32 bits is this number. Of any group, nothing is read below the base, and elsewhere
the number is read that has the group. Requests that are numbered from zero all have groups of their own,
as long as 32 bits can count them. -/
theorem requests_read_back :
    (∀ one other, forRequest base one = forRequest base other ↔ one % 2 ^ 32 = other % 2 ^ 32) ∧
    (∀ request, (forRequest base request).requestId? base =
      if base.word.toNat + request % 2 ^ 32 ≤ 2 ^ 32 - 1 then some (request % 2 ^ 32) else none) ∧
    (∀ request < 2 ^ 32, ∀ found, (forRequest base request).requestId? base = some found →
      found = request) ∧
    (∀ group : GroupAddress, (group.requestId? base = none ↔ group.word.toNat < base.word.toNat) ∧
      ∀ request, group.requestId? base = some request ↔
        forRequest base request = group ∧ base.word.toNat + request ≤ 2 ^ 32 - 1) ∧
    ∀ requests, Schedule.NumberedFromZero requests → requests.length ≤ 2 ^ 32 →
      requests.Pairwise fun one other => one.group base ≠ other.group base := by
  refine ⟨forRequest_eq_iff base, requestId?_forRequest base, ?_, ?_, pairwise_group_of_numbered base⟩
  · intro request small found read
    rw [requestId?_forRequest, Nat.mod_eq_of_lt small, Option.ite_none_right_eq_some] at read
    exact (Option.some.inj read.2).symm
  · exact fun group => ⟨requestId?_eq_none base group,
      fun request => requestId?_eq_some_iff_forRequest base request group⟩

end

def lastButOne : GroupAddress := ofOctets 255 255 255 254

/-- From the last address but one, number 1 has the last address, and number 2 the first of all. -/
theorem requests_read_back_lastButOne :
    forRequest lastButOne 1 = ofOctets 255 255 255 255 ∧
    forRequest lastButOne (2 ^ 32 + 1) = forRequest lastButOne 1 ∧
    (forRequest lastButOne (2 ^ 32 + 1)).requestId? lastButOne = some 1 ∧
    (∀ found, (forRequest lastButOne 1).requestId? lastButOne = some found → found = 1) ∧
    forRequest lastButOne 2 = ofOctets 0 0 0 0 ∧
    (forRequest lastButOne 2).requestId? lastButOne = none ∧
    (renumber diamondSchedule).Pairwise fun one other =>
      one.group lastButOne ≠ other.group lastButOne := by
  obtain ⟨shared, read, own, _, apart⟩ := requests_read_back lastButOne
  have few : (renumber diamondSchedule).length ≤ 2 ^ 32 := by
    rw [length_renumber]
    decide
  exact ⟨by decide, (shared _ _).2 (by decide), (read _).trans (by decide), own 1 (by decide),
    by decide, (read _).trans (by decide), apart _ (numberedFromZero_renumber _) few⟩

end GroupAddress
end Multicast
