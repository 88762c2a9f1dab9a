import Multicast.Order
import Multicast.Total
import Mathlib.Data.List.Nodup
import Mathlib.Data.List.Perm.Subperm

/-!
Tables as lists of their entries. An entry of a table stands in the list once, in front of the entries
that are left without it. Main statement: a value that changes in a table changes the total over the
table by as much.
-/

namespace Multicast
open Std

section
variable {α β : Type} [Ord α] [TransOrd α] [LawfulEqOrd α]

theorem nodup_toList (table : ExtTreeMap α β) : table.toList.Nodup :=
  table.distinct_keys_toList.imp fun distinct same => distinct (by rw [same, compare_self])

theorem mem_toList_erase (table : ExtTreeMap α β) (key : α) (entry : α × β) :
    entry ∈ (table.erase key).toList ↔ key ≠ entry.1 ∧ entry ∈ table.toList := by
  rw [ExtTreeMap.mem_toList_iff_getElem?_eq_some, ExtTreeMap.getElem?_erase,
    ExtTreeMap.mem_toList_iff_getElem?_eq_some]
  by_cases same : key = entry.1
  · rw [if_pos (by rw [same, compare_self])]
    simp [same]
  · rw [if_neg (by rwa [Std.compare_eq_iff_eq])]
    simp [same]

open scoped List in
theorem perm_toList_erase (table : ExtTreeMap α β) (key : α) (value : β)
    (found : table[key]? = some value) : table.toList ~ (key, value) :: (table.erase key).toList := by
  have nodup := List.nodup_cons.2
    ⟨fun again => ((mem_toList_erase table key (key, value)).1 again).1 rfl,
      nodup_toList (table.erase key)⟩
  refine (List.perm_ext_iff_of_nodup (nodup_toList table) nodup).2 fun entry => ?_
  rw [List.mem_cons, mem_toList_erase]
  by_cases same : key = entry.1
  · rw [ExtTreeMap.mem_toList_iff_getElem?_eq_some, ← same, found, Prod.ext_iff, Option.some.injEq]
    simp [same, eq_comm]
  · simp only [ne_eq, same, not_false_eq_true, true_and, iff_or_self]
    rintro rfl
    exact absurd rfl same

theorem erase_modify (table : ExtTreeMap α β) (key : α) (change : β → β) :
    (table.modify key change).erase key = table.erase key := by
  refine ExtTreeMap.ext_getElem? fun other => ?_
  rw [ExtTreeMap.getElem?_erase, ExtTreeMap.getElem?_erase, ExtTreeMap.getElem?_modify]
  split
  · rfl
  · rfl

end

open scoped List in
theorem total_perm {counts others : List Nat} (perm : counts ~ others) :
    total counts = total others := by
  induction perm with
  | nil => rfl
  | cons count _ ih => rw [total_cons, total_cons, ih]
  | swap one other rest =>
    simp only [total_cons]
    omega
  | trans _ _ first second => exact first.trans second

theorem total_eq_zero {counts : List Nat} : total counts = 0 ↔ ∀ count ∈ counts, count = 0 := by
  induction counts with
  | nil => simp [total_nil]
  | cons count rest ih => simp [total_cons, ih]

def tableTotal {α β : Type} [Ord α] [TransOrd α] (size : β → Nat) (table : ExtTreeMap α β) : Nat :=
  total (table.toList.map fun entry => size entry.2)

section
variable {α β : Type} [Ord α] [TransOrd α] [LawfulEqOrd α] (size : β → Nat)
  (table : ExtTreeMap α β) (key : α) (value : β) (found : table[key]? = some value)
include found

theorem tableTotal_of_found :
    tableTotal size table = size value + tableTotal size (table.erase key) :=
  total_perm ((perm_toList_erase table key value found).map fun (entry : α × β) => size entry.2)

theorem tableTotal_modify (change : β → β) :
    tableTotal size (table.modify key change) + size value =
      tableTotal size table + size (change value) := by
  have changed : (table.modify key change)[key]? = some (change value) := by
    rw [ExtTreeMap.getElem?_modify, if_pos compare_self, found, Option.map_some]
  rw [tableTotal_of_found size _ key _ changed, tableTotal_of_found size table key value found,
    erase_modify]
  omega

end

end Multicast
